import SimBus.Value
/-!
Well-formed values. An array holds items of the type it announces, a dictionary
holds typed entries under keys that differ, and an object path is valid, all
the way down. The checked constructors build nothing else.
-/

namespace SimBus

namespace Value

mutual
def WellFormed : Value → Prop
  | bool _ | int _ _ | double _ | string _ => True
  | objectPath text => ObjectPath.valid text = true
  | variant inner => WellFormed inner
  | array element items => AllWellFormed items ∧ ∀ item ∈ items, item.ty = element
  | tuple items => AllWellFormed items
  | dict key value entries =>
      EntriesWellFormed entries ∧ (∀ entry ∈ entries, entry.1.ty = key ∧ entry.2.ty = value) ∧
        entries.Pairwise fun earlier later => (earlier.1 == later.1) = false

def AllWellFormed : List Value → Prop
  | [] => True
  | item :: rest => WellFormed item ∧ AllWellFormed rest

def EntriesWellFormed : List (Value × Value) → Prop
  | [] => True
  | (key, value) :: rest => WellFormed key ∧ WellFormed value ∧ EntriesWellFormed rest
end

def Inhabits (v : Value) (ty : Ty) : Prop := v.WellFormed ∧ v.ty = ty

/-- Entries that a dictionary of the given types can have. -/
structure Entries (key value : Ty) (entries : List (Value × Value)) : Prop where
  typed : ∀ entry ∈ entries, entry.1.Inhabits key ∧ entry.2.Inhabits value
  distinct : entries.Pairwise fun earlier later => (earlier.1 == later.1) = false

theorem allWellFormed_iff (items : List Value) :
    AllWellFormed items ↔ ∀ item ∈ items, item.WellFormed := by
  induction items with
  | nil => simp [AllWellFormed]
  | cons item rest ih => simp [AllWellFormed, ih]

theorem entriesWellFormed_iff (entries : List (Value × Value)) :
    EntriesWellFormed entries ↔ ∀ entry ∈ entries, entry.1.WellFormed ∧ entry.2.WellFormed := by
  induction entries with
  | nil => simp [EntriesWellFormed]
  | cons entry rest ih => simp [EntriesWellFormed, ih, and_assoc]

theorem tyOfList_eq_map (items : List Value) : tyOfList items = items.map ty := by
  induction items with
  | nil => rfl
  | cons item rest ih => simp [tyOfList, ih]

@[simp] theorem ty_tuple (items : List Value) : (tuple items).ty = .tuple (items.map ty) := by
  rw [ty, tyOfList_eq_map]

theorem wellFormed_tuple_iff (items : List Value) :
    (tuple items).WellFormed ↔ ∀ item ∈ items, item.WellFormed := by
  rw [WellFormed, allWellFormed_iff]

theorem wellFormed_array_iff (element : Ty) (items : List Value) :
    (array element items).WellFormed ↔ ∀ item ∈ items, item.Inhabits element := by
  rw [WellFormed, allWellFormed_iff]
  constructor
  · rintro ⟨wellFormed, typed⟩ item member
    exact ⟨wellFormed item member, typed item member⟩
  · intro inhabits
    exact ⟨fun item member => (inhabits item member).1, fun item member => (inhabits item member).2⟩

theorem wellFormed_dict_iff (key value : Ty) (entries : List (Value × Value)) :
    (dict key value entries).WellFormed ↔ Entries key value entries := by
  rw [WellFormed, entriesWellFormed_iff]
  constructor
  · rintro ⟨wellFormed, typed, distinct⟩
    exact ⟨fun entry member => ⟨⟨(wellFormed entry member).1, (typed entry member).1⟩,
      (wellFormed entry member).2, (typed entry member).2⟩, distinct⟩
  · rintro ⟨typed, distinct⟩
    exact ⟨fun entry member => ⟨(typed entry member).1.1, (typed entry member).2.1⟩,
      fun entry member => ⟨(typed entry member).1.2, (typed entry member).2.2⟩, distinct⟩

/-! What the values of a type look like. -/

theorem inhabits_bool (flag : Bool) : (bool flag).Inhabits .bool := ⟨trivial, rfl⟩

theorem inhabits_int (kind : IntKind) (number : kind.Number) :
    (int kind number).Inhabits (.int kind) := ⟨trivial, rfl⟩

theorem inhabits_double (x : Float) : (double x).Inhabits .double := ⟨trivial, rfl⟩

theorem inhabits_string (text : String) : (string text).Inhabits .string := ⟨trivial, rfl⟩

theorem inhabits_variant (inner : Value) (wellFormed : inner.WellFormed) :
    (variant inner).Inhabits .variant := ⟨wellFormed, rfl⟩

theorem inhabits_array (element : Ty) (items : List Value)
    (typed : ∀ item ∈ items, item.Inhabits element) :
    (array element items).Inhabits (.array element) :=
  ⟨(wellFormed_array_iff element items).mpr typed, rfl⟩

theorem inhabits_dict (key value : Ty) (entries : List (Value × Value))
    (typed : Entries key value entries) : (dict key value entries).Inhabits (.dict key value) :=
  ⟨(wellFormed_dict_iff key value entries).mpr typed, rfl⟩

theorem bool_of_ty (v : Value) (typed : v.ty = .bool) : ∃ flag, v = bool flag := by
  cases v <;> simp_all [ty]

theorem int_of_ty (v : Value) (kind : IntKind) (typed : v.ty = .int kind) :
    ∃ number, v = int kind number := by
  cases v with
  | int kind' number =>
      obtain rfl := Ty.int.inj typed
      exact ⟨number, rfl⟩
  | _ => simp [ty] at typed

theorem double_of_ty (v : Value) (typed : v.ty = .double) : ∃ x, v = double x := by
  cases v <;> simp_all [ty]

theorem string_of_ty (v : Value) (typed : v.ty = .string) : ∃ text, v = string text := by
  cases v <;> simp_all [ty]

theorem objectPath_of_ty (v : Value) (typed : v.ty = .objectPath) :
    ∃ text, v = objectPath text := by
  cases v <;> simp_all [ty]

theorem array_of_inhabits (v : Value) (element : Ty) (inhabits : v.Inhabits (.array element)) :
    ∃ items, v = array element items ∧ ∀ item ∈ items, item.Inhabits element := by
  obtain ⟨wellFormed, typed⟩ := inhabits
  cases v with
  | array element' items =>
      obtain rfl := Ty.array.inj typed
      exact ⟨items, rfl, (wellFormed_array_iff _ items).mp wellFormed⟩
  | _ => simp [ty] at typed

theorem dict_of_inhabits (v : Value) (key value : Ty) (inhabits : v.Inhabits (.dict key value)) :
    ∃ entries, v = dict key value entries ∧ Entries key value entries := by
  obtain ⟨wellFormed, typed⟩ := inhabits
  cases v with
  | dict key' value' entries =>
      obtain ⟨rfl, rfl⟩ := Ty.dict.inj typed
      exact ⟨entries, rfl, (wellFormed_dict_iff _ _ entries).mp wellFormed⟩
  | _ => simp [ty] at typed

theorem tuple_of_inhabits (v : Value) (types : List Ty) (inhabits : v.Inhabits (.tuple types)) :
    ∃ items, v = tuple items ∧ items.map ty = types ∧ ∀ item ∈ items, item.WellFormed := by
  obtain ⟨wellFormed, typed⟩ := inhabits
  cases v with
  | tuple items =>
      rw [ty_tuple] at typed
      exact ⟨items, rfl, Ty.tuple.inj typed, (wellFormed_tuple_iff items).mp wellFormed⟩
  | _ => simp [ty] at typed

theorem pair_of_inhabits (v : Value) (first second : Ty)
    (inhabits : v.Inhabits (.tuple [first, second])) :
    ∃ a b, v = tuple [a, b] ∧ a.Inhabits first ∧ b.Inhabits second := by
  obtain ⟨items, rfl, types, wellFormed⟩ := tuple_of_inhabits v _ inhabits
  rcases items with _ | ⟨a, _ | ⟨b, _ | ⟨c, rest⟩⟩⟩ <;> simp at types
  exact ⟨a, b, rfl, ⟨wellFormed a (by simp), types.1⟩, wellFormed b (by simp), types.2⟩

theorem triple_of_inhabits (v : Value) (first second third : Ty)
    (inhabits : v.Inhabits (.tuple [first, second, third])) :
    ∃ a b c, v = tuple [a, b, c] ∧ a.Inhabits first ∧ b.Inhabits second ∧ c.Inhabits third := by
  obtain ⟨items, rfl, types, wellFormed⟩ := tuple_of_inhabits v _ inhabits
  rcases items with _ | ⟨a, _ | ⟨b, _ | ⟨c, _ | ⟨d, rest⟩⟩⟩⟩ <;> simp at types
  exact ⟨a, b, c, rfl, ⟨wellFormed a (by simp), types.1⟩, ⟨wellFormed b (by simp), types.2.1⟩,
    wellFormed c (by simp), types.2.2⟩

/-! Dictionaries, and the checked constructors. -/

theorem entry?_mem (wanted value : Value) (entries : List (Value × Value))
    (found : entry? wanted entries = some value) :
    ∃ key, (key, value) ∈ entries ∧ (key == wanted) = true := by
  induction entries with
  | nil => cases found
  | cons entry rest ih =>
      obtain ⟨key, bound⟩ := entry
      unfold entry? at found
      split at found
      · next equal =>
          obtain rfl := Option.some.inj found
          exact ⟨key, List.mem_cons_self, equal⟩
      · obtain ⟨other, member, equal⟩ := ih found
        exact ⟨other, List.mem_cons_of_mem _ member, equal⟩

theorem expectAll_ok (element : Ty) (items : List Value)
    (typed : ∀ item ∈ items, item.ty = element) : expectAll element items = .ok () := by
  induction items with
  | nil => rfl
  | cons item rest ih =>
      have first : item.ty = element := typed item List.mem_cons_self
      have others := ih fun other member => typed other (List.mem_cons_of_mem _ member)
      simp [expectAll, expectTy, first, others, bind, Except.bind]

theorem mkArray_ok (element : Ty) (items : List Value)
    (typed : ∀ item ∈ items, item.ty = element) :
    mkArray element items = .ok (array element items) := by
  simp [mkArray, expectAll_ok element items typed, bind, Except.bind, pure, Except.pure]

theorem putEntry_mem (key value : Value) (entries : List (Value × Value)) (entry : Value × Value)
    (member : entry ∈ putEntry key value entries) :
    entry ∈ entries ∨ (entry.2 = value ∧ (entry.1 = key ∨ ∃ kept, (entry.1, kept) ∈ entries)) := by
  induction entries with
  | nil =>
      obtain rfl := List.mem_singleton.mp member
      exact .inr ⟨rfl, .inl rfl⟩
  | cons first rest ih =>
      obtain ⟨other, kept⟩ := first
      unfold putEntry at member
      split at member
      · rcases List.mem_cons.mp member with rfl | old
        · exact .inr ⟨rfl, .inr ⟨kept, List.mem_cons_self⟩⟩
        · exact .inl (List.mem_cons_of_mem _ old)
      · rcases List.mem_cons.mp member with rfl | later
        · exact .inl List.mem_cons_self
        · rcases ih later with old | ⟨same, new | ⟨kept', old⟩⟩
          · exact .inl (List.mem_cons_of_mem _ old)
          · exact .inr ⟨same, .inl new⟩
          · exact .inr ⟨same, .inr ⟨kept', List.mem_cons_of_mem _ old⟩⟩

theorem putEntry_distinct (key value : Value) (entries : List (Value × Value))
    (distinct : entries.Pairwise fun earlier later => (earlier.1 == later.1) = false) :
    (putEntry key value entries).Pairwise fun earlier later => (earlier.1 == later.1) = false := by
  induction entries with
  | nil => exact List.pairwise_singleton _ _
  | cons first rest ih =>
      obtain ⟨other, kept⟩ := first
      obtain ⟨fromFirst, others⟩ := List.pairwise_cons.mp distinct
      unfold putEntry
      split
      · exact List.pairwise_cons.mpr ⟨fromFirst, others⟩
      · next differs =>
          refine List.pairwise_cons.mpr ⟨?_, ih others⟩
          intro entry member
          rcases putEntry_mem key value rest entry member with old | ⟨-, new | ⟨kept', old⟩⟩
          · exact fromFirst entry old
          · simpa [new] using differs
          · exact fromFirst (entry.1, kept') old

theorem putEntry_entries (keyTy valueTy : Ty) (key value : Value)
    (entries : List (Value × Value)) (typed : Entries keyTy valueTy entries)
    (keyTyped : key.Inhabits keyTy) (valueTyped : value.Inhabits valueTy) :
    Entries keyTy valueTy (putEntry key value entries) := by
  refine ⟨?_, putEntry_distinct key value entries typed.distinct⟩
  intro entry member
  rcases putEntry_mem key value entries entry member with old | ⟨same, new | ⟨kept, old⟩⟩
  · exact typed.typed entry old
  · exact ⟨new ▸ keyTyped, same ▸ valueTyped⟩
  · exact ⟨(typed.typed (entry.1, kept) old).1, same ▸ valueTyped⟩

theorem putAll_ok (keyTy valueTy : Ty) (pairs entries : List (Value × Value))
    (typed : Entries keyTy valueTy entries)
    (pairsTyped : ∀ pair ∈ pairs, pair.1.Inhabits keyTy ∧ pair.2.Inhabits valueTy) :
    ∃ all, putAll keyTy valueTy pairs entries = .ok all ∧ Entries keyTy valueTy all := by
  induction pairs generalizing entries with
  | nil => exact ⟨entries, rfl, typed⟩
  | cons pair rest ih =>
      obtain ⟨key, value⟩ := pair
      obtain ⟨keyTyped, valueTyped⟩ := pairsTyped (key, value) List.mem_cons_self
      obtain ⟨all, put, allTyped⟩ := ih (putEntry key value entries)
        (putEntry_entries keyTy valueTy key value entries typed keyTyped valueTyped)
        fun other member => pairsTyped other (List.mem_cons_of_mem _ member)
      have keyFits : key.ty = keyTy := keyTyped.2
      have valueFits : value.ty = valueTy := valueTyped.2
      exact ⟨all, by simp [putAll, expectTy, keyFits, valueFits, put, bind, Except.bind], allTyped⟩

theorem mkDict_ok (keyTy valueTy : Ty) (pairs : List (Value × Value))
    (typed : ∀ pair ∈ pairs, pair.1.Inhabits keyTy ∧ pair.2.Inhabits valueTy) :
    ∃ v, mkDict keyTy valueTy pairs = .ok v ∧ v.Inhabits (.dict keyTy valueTy) := by
  obtain ⟨all, put, allTyped⟩ := putAll_ok keyTy valueTy pairs [] ⟨by simp, .nil⟩ typed
  exact ⟨dict keyTy valueTy all, by simp [mkDict, put, bind, Except.bind, pure, Except.pure],
    inhabits_dict keyTy valueTy all allTyped⟩

theorem mkObjectPath_ok (path : String) (v : Value) (made : mkObjectPath path = .ok v) :
    v.Inhabits .objectPath := by
  unfold mkObjectPath at made
  split at made
  · next valid =>
      obtain rfl := Except.ok.inj made
      exact ⟨valid, rfl⟩
  · cases made

theorem ofInt_ok (ty : Ty) (z : Int) (v : Value) (made : ofInt ty z = .ok v) : v.Inhabits ty := by
  unfold ofInt at made
  split at made
  · next kind =>
      split at made
      · obtain rfl := Except.ok.inj made
        exact inhabits_int kind _
      · cases made
  · obtain rfl := Except.ok.inj made
    exact inhabits_double _
  · cases made

end Value

end SimBus
