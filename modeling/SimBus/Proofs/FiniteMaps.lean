import SimBus.Proofs.BuiltinTypes
import SimBus.Proofs.DictionaryEntries
/-!
Dictionaries as finite maps. Setting a key binds it and nothing else, removing it unbinds it and
nothing else, and the keys keep the order in which they came first. Keys are the same when they
are equal as values, so the two zeros are one key. Results are the very values expected, except
that an entry keeps the key it was made with.
-/

namespace SimBus.Builtin

open Value (Mapping entry? putEntry putPairs lastValue?)

section Dictionary

variable {keyTy valueTy : Ty} {entries : List (Value × Value)}

theorem dictGet_rule (wanted : Value) (typed : wanted.ty = keyTy) :
    dictGet.rule (Value.tuple [.dict keyTy valueTy entries, wanted]).ty = some valueTy := by
  rw [Value.ty_tuple]
  exact if_pos typed.symm

theorem dictRemove_rule (unwanted : Value) (typed : unwanted.ty = keyTy) :
    dictRemove.rule (Value.tuple [.dict keyTy valueTy entries, unwanted]).ty =
      some (.dict keyTy valueTy) := by
  rw [Value.ty_tuple]
  exact if_pos typed.symm

theorem dictSet_rule (key value : Value) (keyTyped : key.ty = keyTy)
    (valueTyped : value.ty = valueTy) :
    dictSet.rule (Value.tuple [.dict keyTy valueTy entries, key, value]).ty =
      some (.dict keyTy valueTy) := by
  rw [Value.ty_tuple]
  exact if_pos ⟨keyTyped.symm, valueTyped.symm⟩

theorem dictGet_congr (wanted : Value) (others : List (Value × Value))
    (same : entry? wanted others = entry? wanted entries) :
    dictGet.call (.tuple [.dict keyTy valueTy others, wanted]) =
      dictGet.call (.tuple [.dict keyTy valueTy entries, wanted]) := by
  simp only [call, dictGet, same]
  rfl

theorem dictGet_found (wanted value : Value) (typed : wanted.ty = keyTy)
    (valueTyped : value.ty = valueTy) (found : entry? wanted entries = some value) :
    dictGet.call (.tuple [.dict keyTy valueTy entries, wanted]) = pure value := by
  refine call_returns _ _ _ valueTy (dictGet_rule wanted typed) ?_ valueTyped
  simp only [dictGet, found]

theorem dictGet_missing (wanted : Value) (typed : wanted.ty = keyTy)
    (missing : entry? wanted entries = none) :
    dictGet.call (.tuple [.dict keyTy valueTy entries, wanted]) = throw (.missingKey wanted) := by
  refine call_fails _ _ valueTy _ (dictGet_rule wanted typed) ?_
  simp only [dictGet, missing]

theorem dictSet_puts (held : Mapping keyTy valueTy entries) (key value : Value)
    (keyTyped : key.ty = keyTy) (valueTyped : value.ty = valueTy) :
    dictSet.call (.tuple [.dict keyTy valueTy entries, key, value]) =
      pure (.dict keyTy valueTy (putEntry key value entries)) := by
  have typed : ∀ pair ∈ entries ++ [(key, value)], pair.1.ty = keyTy ∧ pair.2.ty = valueTy :=
    List.forall_mem_append.mpr
      ⟨held.typed, List.forall_mem_singleton.mpr ⟨keyTyped, valueTyped⟩⟩
  have put : putPairs (entries ++ [(key, value)]) [] = putEntry key value entries := by
    rw [putPairs, List.foldl_append]
    change putEntry key value (putPairs entries []) = _
    rw [Value.putPairs_distinct entries [] held.distinct, List.nil_append]
  refine call_returns _ _ _ _ (dictSet_rule key value keyTyped valueTyped) ?_ rfl
  simp only [dictSet, Value.mkDict_eq _ typed, put]
  rfl

theorem dictRemove_filters (unwanted : Value) (typed : unwanted.ty = keyTy) :
    dictRemove.call (.tuple [.dict keyTy valueTy entries, unwanted]) =
      pure (.dict keyTy valueTy (entries.filter fun entry => !(entry.1 == unwanted))) :=
  call_returns _ _ _ _ (dictRemove_rule unwanted typed) rfl rfl

theorem keys_lists :
    keys.call (.dict keyTy valueTy entries) = pure (.array keyTy (entries.map Prod.fst)) :=
  call_returns _ _ _ (.array keyTy) rfl rfl rfl

theorem length_counts :
    length.call (.dict keyTy valueTy entries) =
      Eval.ofExcept (Operator.exact "length" .uint32 entries.length) := by
  cases counted : IntKind.uint32.number? entries.length with
  | some number =>
      refine (call_returns _ _ (.int .uint32 number) (.int .uint32) rfl ?_ rfl).trans ?_
      · simp only [length, counted]
      · simp only [Operator.exact, counted, Eval.ofExcept]
  | none =>
      refine (call_fails _ _ (.int .uint32) (.overflow "length" (.int .uint32)) rfl ?_).trans ?_
      · simp only [length, counted]
      · simp only [Operator.exact, counted, Eval.ofExcept]

end Dictionary

section Laws

variable (keyTy valueTy : Ty) (entries entries' : List (Value × Value))

/-- What setting a key makes of a dictionary: another one in which the key is bound to the value,
every other key as before, and the order of the keys as before. -/
structure Binds (key value : Value) : Prop where
  returned : dictSet.call (.tuple [.dict keyTy valueTy entries, key, value]) =
    pure (.dict keyTy valueTy entries')
  mapping : Mapping keyTy valueTy entries'
  wellFormed : (Value.dict keyTy valueTy entries).WellFormed → key.WellFormed → value.WellFormed →
    (Value.dict keyTy valueTy entries').WellFormed
  here : dictGet.call (.tuple [.dict keyTy valueTy entries', key]) = pure value
  elsewhere : ∀ other, (key == other) = false →
    dictGet.call (.tuple [.dict keyTy valueTy entries', other]) =
      dictGet.call (.tuple [.dict keyTy valueTy entries, other])
  replaced : (∃ entry ∈ entries, (entry.1 == key) = true) →
    entries'.map Prod.fst = entries.map Prod.fst
  added : (∀ entry ∈ entries, (entry.1 == key) = false) →
    entries'.map Prod.fst = entries.map Prod.fst ++ [key]
  length_iff : entries'.length = entries.length + 1 ↔ ∀ entry ∈ entries, (entry.1 == key) = false
  undone : (∀ entry ∈ entries, (entry.1 == key) = false) →
    dictRemove.call (.tuple [.dict keyTy valueTy entries', key]) =
      pure (.dict keyTy valueTy entries)

/-- What removing a key makes of a dictionary: another one without the key, and with every other
key as before. -/
structure Unbinds (key : Value) : Prop where
  returned : dictRemove.call (.tuple [.dict keyTy valueTy entries, key]) =
    pure (.dict keyTy valueTy entries')
  mapping : Mapping keyTy valueTy entries'
  wellFormed : (Value.dict keyTy valueTy entries).WellFormed →
    (Value.dict keyTy valueTy entries').WellFormed
  absent : ∀ entry ∈ entries', (entry.1 == key) = false
  here : dictGet.call (.tuple [.dict keyTy valueTy entries', key]) = throw (.missingKey key)
  elsewhere : ∀ other, (key == other) = false →
    dictGet.call (.tuple [.dict keyTy valueTy entries', other]) =
      dictGet.call (.tuple [.dict keyTy valueTy entries, other])

/-- What becomes of an array of keys and one of values: a dictionary with the keys in the order in
which they came first, each with the value at its last occurrence. -/
structure Pairs (ks vs : List Value) : Prop where
  returned : pairKeys.call (.tuple [.array keyTy ks, .array valueTy vs]) =
    pure (.dict keyTy valueTy entries)
  mapping : Mapping keyTy valueTy entries
  wellFormed : (Value.array keyTy ks).WellFormed → (Value.array valueTy vs).WellFormed →
    (Value.dict keyTy valueTy entries).WellFormed
  ordered : keys.call (.dict keyTy valueTy entries) = pure (.array keyTy ks.eraseDups)
  last : ∀ i (inKeys : i < ks.length) (inValues : i < vs.length) wanted, wanted.ty = keyTy →
    (ks[i] == wanted) = true →
      (∀ j (later : j < ks.length), i < j → (ks[j] == wanted) = false) →
        dictGet.call (.tuple [.dict keyTy valueTy entries, wanted]) = pure vs[i]

end Laws

section Dictionary

variable {keyTy valueTy : Ty} {entries : List (Value × Value)}

theorem dictSet_binds (held : Mapping keyTy valueTy entries) (key value : Value)
    (keyTyped : key.ty = keyTy) (keyed : key.Keyed) (number : (key == key) = true)
    (valueTyped : value.ty = valueTy) :
    Binds keyTy valueTy entries (putEntry key value entries) key value := by
  have found := Value.entry?_putEntry key value entries held.keyed keyed
  have ordered := Value.putEntry_keys key value entries
  have fresh_iff : (entries.map Prod.fst).any (· == key) = false ↔
      ∀ entry ∈ entries, (entry.1 == key) = false := by simp
  constructor
  case returned => exact dictSet_puts held key value keyTyped valueTyped
  case mapping =>
    exact Value.mapping_putEntry key value entries held keyTyped keyed valueTyped
  case wellFormed =>
    simp only [Value.wellFormed_dict_iff]
    intro typed keyWell valueWell
    exact Value.putEntry_entries keyTy valueTy key value entries typed ⟨keyWell, keyTyped⟩
      ⟨valueWell, valueTyped⟩
  case here =>
    refine dictGet_found key value keyTyped valueTyped ?_
    rw [found, if_pos number]
  case elsewhere =>
    intro other differs
    refine dictGet_congr other _ ?_
    rw [found, if_neg (Bool.eq_false_iff.mp differs)]
  case replaced =>
    rintro ⟨entry, member, equal⟩
    have there : (entries.map Prod.fst).any (· == key) = true :=
      List.any_eq_true.mpr ⟨entry.1, List.mem_map_of_mem member, equal⟩
    rw [ordered, if_pos there]
  case added =>
    intro fresh
    rw [Value.putEntry_fresh key value entries fresh, List.map_append]
    rfl
  case length_iff =>
    rw [← fresh_iff]
    have counted := congrArg List.length ordered
    rw [List.length_map] at counted
    cases there : (entries.map Prod.fst).any (· == key) <;> simp_all
  case undone =>
    intro fresh
    rw [dictRemove_filters key keyTyped, Value.putEntry_fresh key value entries fresh,
      List.filter_append]
    have front : entries.filter (fun entry => !(entry.1 == key)) = entries :=
      List.filter_eq_self.mpr fun entry member => by rw [fresh entry member]; rfl
    rw [front, List.filter_singleton, number]
    simp

theorem dictRemove_unbinds (held : Mapping keyTy valueTy entries) (key : Value)
    (keyTyped : key.ty = keyTy) (keyed : key.Keyed) :
    Unbinds keyTy valueTy entries (entries.filter fun entry => !(entry.1 == key)) key := by
  have found := fun wanted => Value.entry?_filter key wanted entries held.keyed keyed
  have absent : ∀ entry ∈ entries.filter fun entry => !(entry.1 == key),
      (entry.1 == key) = false := by
    intro entry member
    simpa using (List.mem_filter.mp member).2
  constructor
  case returned => exact dictRemove_filters key keyTyped
  case mapping =>
    exact ⟨fun entry member => held.typed entry (List.mem_filter.mp member).1,
      fun entry member => held.keyed entry (List.mem_filter.mp member).1, held.distinct.filter _⟩
  case wellFormed =>
    simp only [Value.wellFormed_dict_iff]
    intro typed
    exact ⟨fun entry member => typed.typed entry (List.mem_filter.mp member).1,
      typed.distinct.filter _⟩
  case absent => exact absent
  case here => exact dictGet_missing key keyTyped ((Value.entry?_none_iff key _).mpr absent)
  case elsewhere =>
    intro other differs
    refine dictGet_congr other _ ?_
    rw [found, if_neg (Bool.eq_false_iff.mp differs)]

theorem pairKeys_pairs (basic : keyTy.isBasic = true) (ks vs : List Value)
    (keysTyped : ∀ k ∈ ks, k.ty = keyTy) (valuesTyped : ∀ v ∈ vs, v.ty = valueTy)
    (counted : ks.length = vs.length) :
    Pairs keyTy valueTy (putPairs (ks.zip vs) []) ks vs := by
  have typed : ∀ pair ∈ ks.zip vs, pair.1.ty = keyTy ∧ pair.2.ty = valueTy := fun pair member =>
    ⟨keysTyped _ (List.of_mem_zip member).1, valuesTyped _ (List.of_mem_zip member).2⟩
  have keyed : ∀ pair ∈ ks.zip vs, pair.1.Keyed := fun pair member =>
    Value.keyed_of_isBasic pair.1 ((typed pair member).1 ▸ basic)
  have mapping : Mapping keyTy valueTy (putPairs (ks.zip vs) []) :=
    Value.mapping_putPairs (ks.zip vs) [] keyed ⟨by simp, by simp, .nil⟩ typed
  have made := Value.mkDict_eq (ks.zip vs) typed
  constructor
  case returned =>
    refine call_returns _ _ _ (.dict keyTy valueTy) ?_ ?_ rfl
    · rw [Value.ty_tuple]
      exact if_pos basic
    · simp only [pairKeys, counted, ↓reduceIte, made]
      rfl
  case mapping => exact mapping
  case wellFormed =>
    simp only [Value.wellFormed_array_iff]
    intro keysWell valuesWell
    obtain ⟨dict, made', inhabits⟩ := Value.mkDict_ok keyTy valueTy (ks.zip vs) fun pair member =>
      ⟨keysWell _ (List.of_mem_zip member).1, valuesWell _ (List.of_mem_zip member).2⟩
    obtain rfl := Except.ok.inj (made.symm.trans made')
    exact inhabits.1
  case ordered =>
    rw [keys_lists, Value.putPairs_keys (ks.zip vs) [] keyed, List.map_fst_zip (by omega)]
    simp
  case last =>
    intro i inKeys inValues wanted wantedTyped equal later
    have inside : i < (ks.zip vs).length := by
      rw [List.length_zip]
      omega
    refine dictGet_found wanted vs[i] wantedTyped (valuesTyped _ (List.getElem_mem inValues)) ?_
    rw [Value.entry?_putPairs (ks.zip vs) [] keyed wanted (by simp)]
    rw [Value.lastValue?_at wanted (ks.zip vs) i inside (by simpa using equal) ?_]
    · simp
    · intro j below after
      rw [List.getElem_zip]
      exact later j _ after

end Dictionary

/-- The functions on dictionaries are those of a finite map. Every well-formed dictionary is a
mapping, and what is made of it is well-formed again. A key that does not equal itself can be
removed, but nothing can be bound to it. -/
theorem dictionary_map :
    (∀ keyTy valueTy entries, Mapping keyTy valueTy entries →
      keys.call (.dict keyTy valueTy entries) = pure (.array keyTy (entries.map Prod.fst)) ∧
        length.call (.dict keyTy valueTy entries) =
          Eval.ofExcept (Operator.exact "length" .uint32 entries.length) ∧
        ∀ key : Value, key.ty = keyTy → key.Keyed →
          (∃ without, Unbinds keyTy valueTy entries without key) ∧
            ∀ value : Value, value.ty = valueTy → (key == key) = true →
              ∃ bound, Binds keyTy valueTy entries bound key value) ∧
      ∀ (keyTy valueTy : Ty) (ks vs : List Value), keyTy.isBasic = true →
        (∀ k ∈ ks, k.ty = keyTy) → (∀ v ∈ vs, v.ty = valueTy) → ks.length = vs.length →
          ∃ paired, Pairs keyTy valueTy paired ks vs := by
  constructor
  · intro keyTy valueTy entries held
    refine ⟨keys_lists, length_counts, fun key keyTyped keyed => ⟨?_, ?_⟩⟩
    · exact ⟨_, dictRemove_unbinds held key keyTyped keyed⟩
    · intro value valueTyped number
      exact ⟨_, dictSet_binds held key value keyTyped keyed number valueTyped⟩
  · intro keyTy valueTy ks vs basic keysTyped valuesTyped counted
    exact ⟨_, pairKeys_pairs basic ks vs keysTyped valuesTyped counted⟩

def levels : List (Value × Value) :=
  [(.double 0.0, .string "low"), (.double 1.5, .string "high")]

theorem levels_map :
    Mapping .double .string levels ∧ (Value.double (-0.0)).ty = .double ∧
      (Value.double (-0.0)).Keyed ∧ (Value.string "ebb").ty = .string ∧
      (Value.double (-0.0) == .double (-0.0)) = true ∧
      (∃ bound, Binds .double .string levels bound (.double (-0.0)) (.string "ebb")) ∧
      (∀ k ∈ [Value.double 0.0, .double (-0.0)], k.ty = .double) ∧
      (∀ v ∈ [Value.string "low", .string "ebb"], v.ty = .string) ∧
      ∃ paired, Pairs .double .string paired [.double 0.0, .double (-0.0)]
        [.string "low", .string "ebb"] := by
  have typed : Value.Entries .double .string levels := by
    refine ⟨?_, by decide +kernel⟩
    simp [levels, Value.inhabits_double, Value.inhabits_string]
  have number : (Value.double (-0.0) == .double (-0.0)) = true := by decide +kernel
  have keysTyped : ∀ k ∈ [Value.double 0.0, .double (-0.0)], k.ty = .double := by simp [Value.ty]
  have valuesTyped : ∀ v ∈ [Value.string "low", .string "ebb"], v.ty = .string := by
    simp [Value.ty]
  obtain ⟨maps, pairs⟩ := dictionary_map
  obtain ⟨-, -, keyed⟩ := maps .double .string levels typed.mapping
  have binds := (keyed (.double (-0.0)) rfl trivial).2 (.string "ebb") rfl number
  exact ⟨typed.mapping, rfl, trivial, rfl, number, binds, keysTyped, valuesTyped,
    pairs .double .string _ _ rfl keysTyped valuesTyped rfl⟩

end SimBus.Builtin
