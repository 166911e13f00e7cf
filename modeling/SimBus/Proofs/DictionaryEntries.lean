import SimBus.Proofs.ValueEquivalence
/-!
The entries of a dictionary as a map. Putting an entry binds its key, under whatever equals it,
and nothing else; of the keys it adds this one at the end, unless an equal one is there. So after
a list of pairs each key has the value of the last pair, and stands where it came first.
-/

namespace SimBus.Value

/-- Entries of the given types under keys that differ, as do those of any dictionary in a key. -/
structure Mapping (keyTy valueTy : Ty) (entries : List (Value × Value)) : Prop where
  typed : ∀ entry ∈ entries, entry.1.ty = keyTy ∧ entry.2.ty = valueTy
  keyed : ∀ entry ∈ entries, entry.1.Keyed
  distinct : entries.Pairwise fun earlier later => (earlier.1 == later.1) = false

theorem Entries.mapping (keyTy valueTy : Ty) (entries : List (Value × Value))
    (held : Entries keyTy valueTy entries) : Mapping keyTy valueTy entries := by
  refine ⟨fun entry member => ?_, fun entry member => ?_, held.distinct⟩
  · exact ⟨(held.typed entry member).1.2, (held.typed entry member).2.2⟩
  · exact WellFormed.keyed entry.1 (held.typed entry member).1.1

theorem keyed_of_isBasic (v : Value) (basic : v.ty.isBasic = true) : v.Keyed := by
  cases v <;> trivial

theorem beq_congr_left (a b c : Value) (keyed : a.Keyed) (same : (a == b) = true) :
    (a == c) = (b == c) := by
  have back : (b == a) = true := keyed.mirrored a b same
  exact Bool.eq_iff_iff.mpr ⟨beq_trans b a c back, beq_trans a b c same⟩

theorem beq_apart (a b c : Value) (keyed : b.Keyed) (differ : (a == b) = false)
    (equal : (a == c) = true) : (b == c) = false := by
  cases other : b == c with
  | false => rfl
  | true =>
      have back : (c == b) = true := keyed.mirrored b c other
      exact (beq_trans a c b equal back).symm.trans differ

theorem entry?_none_iff (wanted : Value) (entries : List (Value × Value)) :
    entry? wanted entries = none ↔ ∀ entry ∈ entries, (entry.1 == wanted) = false := by
  induction entries with
  | nil => exact ⟨fun _ _ member => (by cases member), fun _ => rfl⟩
  | cons entry rest ih =>
      cases same : entry.1 == wanted <;> simp [same, entry?, ih]

/-! One entry. -/

section Put

variable (key value : Value) (entries : List (Value × Value))

theorem putEntry_fresh (fresh : ∀ entry ∈ entries, (entry.1 == key) = false) :
    putEntry key value entries = entries ++ [(key, value)] := by
  induction entries with
  | nil => rfl
  | cons entry rest ih =>
      obtain ⟨differs, others⟩ := List.forall_mem_cons.mp fresh
      simp [putEntry, differs, ih others]

theorem putEntry_keys :
    (putEntry key value entries).map Prod.fst =
      if (entries.map Prod.fst).any (· == key) then entries.map Prod.fst
      else entries.map Prod.fst ++ [key] := by
  induction entries with
  | nil => rfl
  | cons entry rest ih =>
      cases same : entry.1 == key with
      | true => simp [putEntry, same]
      | false =>
          simp only [putEntry, same, Bool.false_eq_true, ↓reduceIte, List.map_cons, ih,
            List.any_cons, Bool.false_or]
          split <;> rfl

theorem putEntry_keyed (entriesKeyed : ∀ entry ∈ entries, entry.1.Keyed) (keyed : key.Keyed) :
    ∀ entry ∈ putEntry key value entries, entry.1.Keyed := by
  intro entry member
  rcases putEntry_mem key value entries entry member with old | ⟨-, new | ⟨kept, old⟩⟩
  · exact entriesKeyed entry old
  · exact new ▸ keyed
  · exact entriesKeyed (entry.1, kept) old

theorem mapping_putEntry {keyTy valueTy : Ty} (held : Mapping keyTy valueTy entries)
    (keyTyped : key.ty = keyTy) (keyed : key.Keyed) (valueTyped : value.ty = valueTy) :
    Mapping keyTy valueTy (putEntry key value entries) := by
  refine ⟨fun entry member => ?_, putEntry_keyed key value entries held.keyed keyed,
    putEntry_distinct key value entries held.distinct⟩
  rcases putEntry_mem key value entries entry member with old | ⟨same, new | ⟨kept, old⟩⟩
  · exact held.typed entry old
  · exact ⟨new ▸ keyTyped, same ▸ valueTyped⟩
  · exact ⟨(held.typed (entry.1, kept) old).1, same ▸ valueTyped⟩

variable (entriesKeyed : ∀ entry ∈ entries, entry.1.Keyed) (keyed : key.Keyed)
include entriesKeyed keyed

/-- An entry that is put is found under whatever equals its key, and changes nothing else. -/
theorem entry?_putEntry (wanted : Value) :
    entry? wanted (putEntry key value entries) =
      if key == wanted then some value else entry? wanted entries := by
  induction entries with
  | nil => rfl
  | cons entry rest ih =>
      obtain ⟨other, kept⟩ := entry
      obtain ⟨otherKeyed, restKeyed⟩ := List.forall_mem_cons.mp entriesKeyed
      have rest := ih restKeyed
      cases same : other == key with
      | true =>
          have alike := beq_congr_left other key wanted otherKeyed same
          simp only [putEntry, same, ↓reduceIte, entry?, alike]
          split <;> rfl
      | false =>
          simp only [putEntry, same, Bool.false_eq_true, ↓reduceIte, entry?, rest]
          cases wantsOther : other == wanted with
          | false => rfl
          | true => simp [beq_apart other key wanted keyed same wantsOther]

end Put

theorem entry?_filter (key wanted : Value) (entries : List (Value × Value))
    (entriesKeyed : ∀ entry ∈ entries, entry.1.Keyed) (keyed : key.Keyed) :
    entry? wanted (entries.filter fun entry => !(entry.1 == key)) =
      if key == wanted then none else entry? wanted entries := by
  induction entries with
  | nil => simp only [List.filter_nil, entry?, ite_self]
  | cons entry rest ih =>
      obtain ⟨other, kept⟩ := entry
      obtain ⟨otherKeyed, restKeyed⟩ := List.forall_mem_cons.mp entriesKeyed
      have rest := ih restKeyed
      cases same : other == key with
      | true =>
          simp only [List.filter_cons, same, Bool.not_true, Bool.false_eq_true, ↓reduceIte, rest,
            entry?]
          have alike := beq_congr_left other key wanted otherKeyed same
          cases wants : key == wanted <;> simp [alike, wants]
      | false =>
          simp only [List.filter_cons, same, Bool.not_false, ↓reduceIte, rest, entry?]
          cases wantsOther : other == wanted with
          | false => rfl
          | true => simp [beq_apart other key wanted keyed same wantsOther]

/-! One pair after the other. -/

def putPairs (pairs entries : List (Value × Value)) : List (Value × Value) :=
  pairs.foldl (fun held pair => putEntry pair.1 pair.2 held) entries

/-- The value of the last of the pairs whose key equals the one that is wanted. -/
def lastValue? (wanted : Value) (pairs : List (Value × Value)) : Option Value :=
  (pairs.reverse.find? (·.1 == wanted)).map Prod.snd

theorem lastValue?_at (wanted : Value) (pairs : List (Value × Value)) (i : Nat)
    (inside : i < pairs.length) (equal : (pairs[i].1 == wanted) = true)
    (last : ∀ j (later : j < pairs.length), i < j → (pairs[j].1 == wanted) = false) :
    lastValue? wanted pairs = some pairs[i].2 := by
  have behind : (pairs.drop (i + 1)).reverse.find? (·.1 == wanted) = none := by
    rw [List.find?_eq_none]
    intro pair member
    obtain ⟨j, later, rfl⟩ := List.mem_drop_iff_getElem.mp (List.mem_reverse.mp member)
    exact Bool.eq_false_iff.mp (last (i + 1 + j) (by omega) (by omega))
  have backwards : pairs.reverse =
      (pairs.drop (i + 1)).reverse ++ pairs[i] :: (pairs.take i).reverse := by
    have forwards : pairs.take i ++ pairs[i] :: pairs.drop (i + 1) = pairs := by
      rw [← List.drop_eq_getElem_cons inside, List.take_append_drop]
    rw [← congrArg List.reverse forwards, List.reverse_append, List.reverse_cons,
      List.append_assoc, List.singleton_append]
  simp only [lastValue?, backwards, List.find?_append, behind, Option.none_or, List.find?_cons,
    equal, Option.map_some]

section Pairs

variable {keyTy valueTy : Ty} (pairs entries : List (Value × Value))

theorem putAll_eq (typed : ∀ pair ∈ pairs, pair.1.ty = keyTy ∧ pair.2.ty = valueTy) :
    putAll keyTy valueTy pairs entries = .ok (putPairs pairs entries) := by
  induction pairs generalizing entries with
  | nil => rfl
  | cons pair rest ih =>
      obtain ⟨⟨keyFits, valueFits⟩, others⟩ := List.forall_mem_cons.mp typed
      simp only [putAll, expectTy, keyFits, valueFits, ↓reduceIte, bind, Except.bind]
      exact ih (putEntry pair.1 pair.2 entries) others

theorem mkDict_eq (typed : ∀ pair ∈ pairs, pair.1.ty = keyTy ∧ pair.2.ty = valueTy) :
    mkDict keyTy valueTy pairs = .ok (dict keyTy valueTy (putPairs pairs [])) := by
  rw [mkDict, putAll_eq pairs [] typed]
  rfl

theorem putPairs_distinct
    (distinct : (entries ++ pairs).Pairwise fun earlier later => (earlier.1 == later.1) = false) :
    putPairs pairs entries = entries ++ pairs := by
  induction pairs generalizing entries with
  | nil => exact (List.append_nil entries).symm
  | cons pair rest ih =>
      have fresh : ∀ entry ∈ entries, (entry.1 == pair.1) = false := fun entry member =>
        (List.pairwise_append.mp distinct).2.2 entry member pair List.mem_cons_self
      have put := ih (entries ++ [pair]) (by simpa using distinct)
      rw [List.append_assoc, List.singleton_append] at put
      rw [← put, putPairs, List.foldl_cons, putEntry_fresh _ _ _ fresh]
      rfl

theorem mkDict_distinct (typed : ∀ pair ∈ pairs, pair.1.ty = keyTy ∧ pair.2.ty = valueTy)
    (distinct : pairs.Pairwise fun earlier later => (earlier.1 == later.1) = false) :
    mkDict keyTy valueTy pairs = .ok (dict keyTy valueTy pairs) := by
  rw [mkDict_eq pairs typed, putPairs_distinct pairs [] distinct, List.nil_append]

variable (keyed : ∀ pair ∈ pairs, pair.1.Keyed)
include keyed

theorem mapping_putPairs (held : Mapping keyTy valueTy entries)
    (typed : ∀ pair ∈ pairs, pair.1.ty = keyTy ∧ pair.2.ty = valueTy) :
    Mapping keyTy valueTy (putPairs pairs entries) := by
  induction pairs generalizing entries with
  | nil => exact held
  | cons pair rest ih =>
      obtain ⟨⟨keyTyped, valueTyped⟩, othersTyped⟩ := List.forall_mem_cons.mp typed
      obtain ⟨pairKeyed, othersKeyed⟩ := List.forall_mem_cons.mp keyed
      exact ih (putEntry pair.1 pair.2 entries) othersKeyed
        (mapping_putEntry pair.1 pair.2 entries held keyTyped pairKeyed valueTyped) othersTyped

theorem entry?_putPairs (wanted : Value) (entriesKeyed : ∀ entry ∈ entries, entry.1.Keyed) :
    entry? wanted (putPairs pairs entries) =
      (lastValue? wanted pairs).or ( entry? wanted entries) := by
  induction pairs generalizing entries with
  | nil => rfl
  | cons pair rest ih =>
      obtain ⟨pairKeyed, othersKeyed⟩ := List.forall_mem_cons.mp keyed
      have putKeyed := putEntry_keyed pair.1 pair.2 entries entriesKeyed pairKeyed
      have others := ih (putEntry pair.1 pair.2 entries) othersKeyed putKeyed
      rw [entry?_putEntry pair.1 pair.2 entries entriesKeyed pairKeyed wanted] at others
      change entry? wanted (putPairs rest (putEntry pair.1 pair.2 entries)) = _
      rw [others]
      simp only [lastValue?, List.reverse_cons, List.find?_append]
      cases (rest.reverse.find? (·.1 == wanted)) with
      | some later => simp
      | none => cases wants : pair.1 == wanted <;> simp [wants]

theorem putPairs_keys :
    (putPairs pairs entries).map Prod.fst = entries.map Prod.fst ++
      ((pairs.map Prod.fst).filter fun key =>
        !(entries.map Prod.fst).any (· == key)).eraseDups := by
  induction pairs generalizing entries with
  | nil => exact (List.append_nil _).symm
  | cons pair rest ih =>
      obtain ⟨pairKeyed, othersKeyed⟩ := List.forall_mem_cons.mp keyed
      have others := ih (putEntry pair.1 pair.2 entries) othersKeyed
      change (putPairs rest (putEntry pair.1 pair.2 entries)).map Prod.fst = _
      rw [others, putEntry_keys, List.map_cons]
      cases there : (entries.map Prod.fst).any (· == pair.1) with
      | true => simp only [↓reduceIte, List.filter_cons, there, Bool.not_true, Bool.false_eq_true]
      | false =>
          simp only [Bool.false_eq_true, ↓reduceIte, List.filter_cons, there, Bool.not_false,
            List.eraseDups_cons, List.append_assoc, List.singleton_append, List.filter_filter]
          congr 3
          refine List.filter_congr fun key member => ?_
          obtain ⟨later, among, rfl⟩ := List.mem_map.mp member
          rw [List.any_append, List.any_cons, List.any_nil, Bool.or_false, Bool.not_or,
            Bool.and_comm, pairKeyed.beq_comm pair.1 later.1 (othersKeyed later among)]

end Pairs

end SimBus.Value
