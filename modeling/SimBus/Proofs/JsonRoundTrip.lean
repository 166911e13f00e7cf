import SimBus.Proofs.DictionaryEntries
import SimBus.Proofs.SignatureRoundTrip
import SimBus.Value.Transport
import Mathlib.Data.List.Perm.Basic
/-!
Values read back from JSON. What is written for a value is read, at its type,
as an equal value. Basic values come back as they were; only the entries of a
dictionary with textual keys change places, since they travel as the members of
an object, which are kept in the order of their names.
-/

namespace SimBus

namespace Json

theorem insertMember_fresh (name : String) (value : Json) (members : List (String × Json))
    (fresh : name ∉ members.map Prod.fst) :
    (insertMember name value members).Perm ((name, value) :: members) := by
  induction members with
  | nil => exact .refl _
  | cons member rest ih =>
      obtain ⟨other, kept⟩ := member
      obtain ⟨differs, others⟩ := not_or.mp (mt List.mem_cons.mpr fresh)
      rw [insertMember]
      split
      · exact .refl _
      · exact ((ih others).cons _).trans (.swap _ _ _)

theorem insertMembers_fresh (members sorted : List (String × Json))
    (distinct : (members.map Prod.fst ++ sorted.map Prod.fst).Nodup) :
    (members.foldl (fun sorted member => insertMember member.1 member.2 sorted) sorted).Perm
      (members ++ sorted) := by
  induction members generalizing sorted with
  | nil => exact .refl _
  | cons member rest ih =>
      obtain ⟨fresh, others⟩ := List.nodup_cons.mp distinct
      have inserted := insertMember_fresh member.1 member.2 sorted fun present =>
        fresh (List.mem_append_right _ present)
      have names := (inserted.map Prod.fst).append_left (rest.map Prod.fst)
      have distinct' : (rest.map Prod.fst ++
          (insertMember member.1 member.2 sorted).map Prod.fst).Nodup :=
        (names.trans List.perm_middle).nodup_iff.mpr distinct
      exact (ih _ distinct').trans ((inserted.append_left rest).trans List.perm_middle)

theorem ofMembers_perm (members : List (String × Json)) (distinct : (members.map Prod.fst).Nodup) :
    ∃ sorted, sorted.Perm members ∧ ofMembers members = .object sorted := by
  have inserted := insertMembers_fresh members [] (by simpa using distinct)
  exact ⟨_, by simpa using inserted, rfl⟩

end Json

namespace Value

mutual
/-- The value can travel as JSON: its doubles are finite, the keys of its
dictionaries are basic, and so are those in the types that variants carry. -/
def Portable : Value → Prop
  | bool _ | int _ _ | string _ | objectPath _ => True
  | double x => x.isFinite = true
  | variant inner => inner.ty.KeysBasic ∧ Portable inner
  | array _ items | tuple items => AllPortable items
  | dict key _ entries => key.isBasic = true ∧ EntriesPortable entries

def AllPortable : List Value → Prop
  | [] => True
  | item :: rest => Portable item ∧ AllPortable rest

def EntriesPortable : List (Value × Value) → Prop
  | [] => True
  | (key, value) :: rest => Portable key ∧ Portable value ∧ EntriesPortable rest
end

theorem entriesPortable_iff (entries : List (Value × Value)) :
    EntriesPortable entries ↔ ∀ entry ∈ entries, entry.1.Portable ∧ entry.2.Portable := by
  induction entries with
  | nil => simp [EntriesPortable]
  | cons entry rest ih => simp [EntriesPortable, ih, and_assoc]

/-! Basic values. -/

theorem basic_beq_self (v : Value) (basic : v.ty.isBasic = true) (portable : v.Portable) :
    (v == v) = true := by
  change beq v v = true
  cases v with
  | double x => exact Operator.beq_self x (Operator.isNaN_of_isFinite x portable)
  | bool _ | int _ _ | string _ | objectPath _ => simp [beq]
  | variant _ | array _ _ | tuple _ | dict _ _ _ => cases basic

theorem ofJson_basic (v : Value) (basic : v.ty.isBasic = true) (wellFormed : v.WellFormed)
    (portable : v.Portable) : ofJson v.toJson v.ty = .ok v := by
  cases v with
  | bool flag => rfl
  | int kind number =>
      have held : kind.number? number.val = some number :=
        dif_pos ⟨number.lo_le, number.le_hi⟩
      simp [toJson, ty, ofJson, ofJsonBasic, Json.integer?, ofInt, held]
  | double x =>
      have finite : x.isFinite = true := portable
      simp [toJson, ty, Json.ofFloat, finite, ofJson, ofJsonBasic, Json.float?]
  | string text => rfl
  | objectPath text =>
      have valid : ObjectPath.valid text = true := wellFormed
      simp [toJson, ty, ofJson, ofJsonBasic, Json.text?, mkObjectPath, valid]
  | variant _ | array _ _ | tuple _ | dict _ _ _ => cases basic

def keyText (key : Value) : String := key.text?.getD ""

theorem textual_key (keyTy : Ty) (key : Value) (textual : isTextual keyTy = true)
    (inhabits : key.Inhabits keyTy) :
    key.text? = some key.keyText ∧ ofJsonBasic (.string key.keyText) keyTy = .ok key := by
  obtain ⟨wellFormed, rfl⟩ := inhabits
  cases key with
  | string text => exact ⟨rfl, rfl⟩
  | objectPath text =>
      have valid : ObjectPath.valid text = true := wellFormed
      exact ⟨rfl, by simp [keyText, text?, ty, ofJsonBasic, Json.text?, mkObjectPath, valid]⟩
  | _ => cases textual

theorem textual_beq (keyTy : Ty) (a b : Value) (textual : isTextual keyTy = true)
    (first : a.ty = keyTy) (second : b.ty = keyTy) : (a == b) = (a.keyText == b.keyText) := by
  subst first
  cases a <;> cases textual <;> cases b <;> cases second <;> rfl

/-! The value that comes back. -/

/-- What is read where the value was written. -/
def carried (v : Value) : Value :=
  match ofJson v.toJson v.ty with
  | .ok w => w
  | .error _ => v

/-- The value is read as one of its type that equals it. -/
structure Returns (v : Value) : Prop where
  read : ofJson v.toJson v.ty = .ok v.carried
  ty_eq : v.carried.ty = v.ty
  equal : (v == v.carried) = true
  equal' : (v.carried == v) = true

theorem returns_of_read (v w : Value) (keyed : v.Keyed) (read : ofJson v.toJson v.ty = .ok w)
    (same : w.ty = v.ty) (equal : (v == w) = true) : v.Returns := by
  have equal' := keyed.mirrored v w equal
  have comes : v.carried = w := by rw [carried, read]
  constructor <;> rw [comes] <;> assumption

theorem basic_returns (v : Value) (basic : v.ty.isBasic = true) (wellFormed : v.WellFormed)
    (portable : v.Portable) : v.Returns :=
  returns_of_read v v (wellFormed.keyed v) (ofJson_basic v basic wellFormed portable) rfl
    (basic_beq_self v basic portable)

theorem ofJsonItems_returns (items : List Value) (element : Ty)
    (typed : ∀ item ∈ items, item.ty = element) (returns : ∀ item ∈ items, item.Returns) :
    ofJsonItems (toJsonList items) element = .ok (items.map carried) := by
  induction items with
  | nil => rfl
  | cons item rest ih =>
      obtain ⟨rfl, typed⟩ := List.forall_mem_cons.mp typed
      obtain ⟨first, returns⟩ := List.forall_mem_cons.mp returns
      simp [toJsonList, ofJsonItems, first.read, ih typed returns, bind, Except.bind, pure,
        Except.pure]

theorem ofJsonTuple_returns (items : List Value) (returns : ∀ item ∈ items, item.Returns) :
    ofJsonTuple (toJsonList items) (items.map ty) = .ok (items.map carried) := by
  induction items with
  | nil => rfl
  | cons item rest ih =>
      obtain ⟨first, returns⟩ := List.forall_mem_cons.mp returns
      simp [toJsonList, ofJsonTuple, first.read, ih returns, bind, Except.bind, pure, Except.pure]

theorem beqList_carried (items : List Value) (returns : ∀ item ∈ items, item.Returns) :
    beqList items (items.map carried) = true := by
  induction items with
  | nil => rfl
  | cons item rest ih =>
      obtain ⟨first, returns⟩ := List.forall_mem_cons.mp returns
      exact Bool.and_eq_true_iff.mpr ⟨first.equal, ih returns⟩

theorem array_returns (element : Ty) (items : List Value) (keyed : AllKeyed items)
    (typed : ∀ item ∈ items, item.ty = element) (returns : ∀ item ∈ items, item.Returns) :
    (array element items).Returns := by
  have read := ofJsonItems_returns items element typed returns
  refine returns_of_read _ (array element (items.map carried)) keyed ?_ rfl ?_
  · simp [toJson, ty, ofJson, read, bind, Except.bind, pure, Except.pure]
  · exact Bool.and_eq_true_iff.mpr ⟨beq_self_eq_true element, beqList_carried items returns⟩

theorem toJsonList_length (items : List Value) : (toJsonList items).length = items.length := by
  induction items with
  | nil => rfl
  | cons item rest ih => simp [toJsonList, ih]

theorem tuple_returns (items : List Value) (keyed : AllKeyed items)
    (returns : ∀ item ∈ items, item.Returns) : (tuple items).Returns := by
  have read := ofJsonTuple_returns items returns
  have types : (items.map carried).map ty = items.map ty := by
    simpa using fun item member => (returns item member).ty_eq
  refine returns_of_read _ (tuple (items.map carried)) keyed ?_ ?_ (beqList_carried items returns)
  · simp [toJson, ofJson, toJsonList_length, read, bind, Except.bind, pure, Except.pure]
  · rw [ty_tuple, ty_tuple, types]

theorem toJson_variant (inner : Value) : (variant inner).toJson =
    .object [("signature", .string inner.ty.signature), ("value", inner.toJson)] := by
  have later : ¬ "value" < "signature" := by decide
  have apart : "value" ≠ "signature" := by decide
  simp only [toJson, Json.ofMembers, List.foldl, Json.insertMember, later, apart, ↓reduceIte]

theorem variant_read (inner : Value) (basic : inner.ty.KeysBasic) (returns : inner.Returns) :
    ofJson (variant inner).toJson .variant = .ok (variant inner.carried) := by
  simp [toJson_variant, ofJson, Json.text?, Ty.parse_signature inner.ty basic, ofJsonMember,
    returns.read, bind, Except.bind, pure, Except.pure]

theorem variant_returns (inner : Value) (basic : inner.ty.KeysBasic) (keyed : inner.Keyed)
    (returns : inner.Returns) : (variant inner).Returns :=
  returns_of_read (variant inner) _ keyed (variant_read inner basic returns) rfl returns.equal

/-! Dictionaries. -/

def carriedEntry (entry : Value × Value) : Value × Value := (entry.1, entry.2.carried)

theorem dict_returns (key value : Ty) (entries moved : List (Value × Value))
    (keyed : (dict key value entries).Keyed)
    (typed : ∀ entry ∈ entries, entry.1.ty = key ∧ entry.2.ty = value)
    (keys : ∀ entry ∈ entries, (entry.1 == entry.1) = true)
    (returns : ∀ entry ∈ entries, entry.2.Returns) (same : moved.Perm entries)
    (distinct : moved.Pairwise fun earlier later => (earlier.1 == later.1) = false)
    (read : ofJson (dict key value entries).toJson (.dict key value) =
      mkDict key value (moved.map carriedEntry)) :
    (dict key value entries).Returns := by
  have made : mkDict key value (moved.map carriedEntry) =
      .ok (dict key value (moved.map carriedEntry)) := by
    refine mkDict_distinct _ ?_ (List.pairwise_map.mpr distinct)
    intro pair member
    obtain ⟨entry, present, rfl⟩ := List.mem_map.mp member
    have there := same.mem_iff.mp present
    exact ⟨(typed entry there).1, (returns entry there).ty_eq.trans (typed entry there).2⟩
  have counts : (moved.map carriedEntry).length = entries.length := by
    rw [List.length_map, same.length_eq]
  have there : within entries (moved.map carriedEntry) = true :=
    (within_iff _ _).mpr fun entry member =>
      ⟨carriedEntry entry, List.mem_map_of_mem (same.mem_iff.mpr member), keys entry member,
        (returns entry member).equal⟩
  refine returns_of_read _ (dict key value (moved.map carriedEntry)) keyed (read.trans made) rfl ?_
  rw [dict_beq_iff_within]
  exact ⟨counts.symm, there⟩

theorem ofJsonPairs_returns (fault : ValueError) (key value : Ty) (entries : List (Value × Value))
    (typed : ∀ entry ∈ entries, entry.1.ty = key ∧ entry.2.ty = value)
    (keys : ∀ entry ∈ entries, ofJson entry.1.toJson entry.1.ty = .ok entry.1)
    (returns : ∀ entry ∈ entries, entry.2.Returns) :
    ofJsonPairs fault (toJsonPairs entries) key value = .ok (entries.map carriedEntry) := by
  induction entries with
  | nil => rfl
  | cons entry rest ih =>
      obtain ⟨⟨rfl, rfl⟩, typed⟩ := List.forall_mem_cons.mp typed
      obtain ⟨firstKey, keys⟩ := List.forall_mem_cons.mp keys
      obtain ⟨first, returns⟩ := List.forall_mem_cons.mp returns
      simp [toJsonPairs, ofJsonPairs, firstKey, first.read, ih typed keys returns,
        carriedEntry, bind, Except.bind, pure, Except.pure]

def toJsonMember (entry : Value × Value) : String × Json := (entry.1.keyText, entry.2.toJson)

theorem toJsonMembers_eq_map (key : Ty) (entries : List (Value × Value))
    (textual : isTextual key = true) (typed : ∀ entry ∈ entries, entry.1.Inhabits key) :
    toJsonMembers entries = entries.map toJsonMember := by
  induction entries with
  | nil => rfl
  | cons entry rest ih =>
      obtain ⟨first, typed⟩ := List.forall_mem_cons.mp typed
      simp [toJsonMembers, (textual_key key entry.1 textual first).1, ih typed, toJsonMember]

theorem ofJsonObject_returns (key value : Ty) (entries : List (Value × Value))
    (textual : isTextual key = true) (typed : ∀ entry ∈ entries, entry.1.Inhabits key)
    (typed' : ∀ entry ∈ entries, entry.2.ty = value)
    (returns : ∀ entry ∈ entries, entry.2.Returns) :
    ofJsonObject (entries.map toJsonMember) key value = .ok (entries.map carriedEntry) := by
  induction entries with
  | nil => rfl
  | cons entry rest ih =>
      obtain ⟨firstKey, typed⟩ := List.forall_mem_cons.mp typed
      obtain ⟨rfl, typed'⟩ := List.forall_mem_cons.mp typed'
      obtain ⟨first, returns⟩ := List.forall_mem_cons.mp returns
      simp [ofJsonObject, toJsonMember, (textual_key key entry.1 textual firstKey).2, first.read,
        ih typed typed' returns, carriedEntry, bind, Except.bind, pure, Except.pure]

theorem keyText_nodup (key : Ty) (entries : List (Value × Value)) (textual : isTextual key = true)
    (typed : ∀ entry ∈ entries, entry.1.ty = key) :
    ((entries.map toJsonMember).map Prod.fst).Nodup ↔
      entries.Pairwise fun earlier later => (earlier.1 == later.1) = false := by
  rw [List.map_map, List.nodup_iff_pairwise_ne, List.pairwise_map]
  refine List.Pairwise.iff_of_mem fun {earlier later} first second => ?_
  rw [textual_beq key _ _ textual (typed earlier first) (typed later second), beq_eq_false_iff_ne]
  rfl

theorem textual_dict_returns (key value : Ty) (entries : List (Value × Value))
    (keyed : (dict key value entries).Keyed) (textual : isTextual key = true)
    (typed : Entries key value entries) (keys : ∀ entry ∈ entries, (entry.1 == entry.1) = true)
    (returns : ∀ entry ∈ entries, entry.2.Returns) : (dict key value entries).Returns := by
  have types : ∀ entry ∈ entries, entry.1.ty = key ∧ entry.2.ty = value := fun entry member =>
    ⟨(typed.typed entry member).1.2, (typed.typed entry member).2.2⟩
  have members := toJsonMembers_eq_map key entries textual fun entry member =>
    (typed.typed entry member).1
  have names := (keyText_nodup key entries textual fun entry member =>
    (types entry member).1).mpr typed.distinct
  obtain ⟨sorted, permuted, written⟩ := Json.ofMembers_perm (entries.map toJsonMember) names
  -- The members in the order of their names are the entries in some order.
  obtain ⟨moved, rfl, same⟩ :=
    (congrFun₂ (List.eq_map_comp_perm toJsonMember) sorted entries).mpr permuted
  have present : ∀ entry ∈ moved, entry ∈ entries := fun entry => same.mem_iff.mp
  have distinct := (keyText_nodup key moved textual fun entry member =>
    (types entry (present entry member)).1).mp ((permuted.map Prod.fst).nodup_iff.mpr names)
  have read := ofJsonObject_returns key value moved textual
    (fun entry member => (typed.typed entry (present entry member)).1)
    (fun entry member => (types entry (present entry member)).2)
    (fun entry member => returns entry (present entry member))
  refine dict_returns key value entries moved keyed types keys returns same distinct ?_
  simp [toJson, textual, members, written, ofJson, read, bind, Except.bind]

theorem listed_dict_returns (key value : Ty) (entries : List (Value × Value))
    (keyed : (dict key value entries).Keyed) (listed : isTextual key = false)
    (typed : Entries key value entries) (keys : ∀ entry ∈ entries, (entry.1 == entry.1) = true)
    (keysRead : ∀ entry ∈ entries, ofJson entry.1.toJson entry.1.ty = .ok entry.1)
    (returns : ∀ entry ∈ entries, entry.2.Returns) : (dict key value entries).Returns := by
  have types : ∀ entry ∈ entries, entry.1.ty = key ∧ entry.2.ty = value := fun entry member =>
    ⟨(typed.typed entry member).1.2, (typed.typed entry member).2.2⟩
  have read := ofJsonPairs_returns (.unreadable (.dict key value) (.array (toJsonPairs entries)))
    key value entries types keysRead returns
  refine dict_returns key value entries entries keyed types keys returns (.refl _) typed.distinct ?_
  simp [toJson, listed, ofJson, read, bind, Except.bind]

mutual
theorem json_returns (v : Value) (wellFormed : v.WellFormed) (portable : v.Portable) :
    v.Returns := by
  match v with
  | bool _ | int _ _ | double _ | string _ | objectPath _ =>
      exact basic_returns _ rfl wellFormed portable
  | variant inner =>
      exact variant_returns inner portable.1 (WellFormed.keyed inner wellFormed)
        (json_returns inner wellFormed portable.2)
  | array element items =>
      exact array_returns element items (AllWellFormed.keyed items wellFormed.1) wellFormed.2
        (items_return items wellFormed.1 portable)
  | tuple items =>
      exact tuple_returns items (AllWellFormed.keyed items wellFormed)
        (items_return items wellFormed portable)
  | dict key value entries =>
      have keyed := WellFormed.keyed (dict key value entries) wellFormed
      have typed := (wellFormed_dict_iff key value entries).mp wellFormed
      -- Keys are basic and come back as they were, so only the values recur.
      have keyPortable : ∀ entry ∈ entries, entry.1.ty.isBasic = true ∧ entry.1.Portable :=
        fun entry member => ⟨(typed.typed entry member).1.2 ▸ portable.1,
          ((entriesPortable_iff entries).mp portable.2 entry member).1⟩
      have keys : ∀ entry ∈ entries, (entry.1 == entry.1) = true := fun entry member =>
        basic_beq_self entry.1 (keyPortable entry member).1 (keyPortable entry member).2
      have returns := entries_return entries wellFormed.1 portable.2
      cases textual : isTextual key with
      | true => exact textual_dict_returns key value entries keyed textual typed keys returns
      | false =>
          exact listed_dict_returns key value entries keyed textual typed keys
            (fun entry member => ofJson_basic entry.1 (keyPortable entry member).1
              (typed.typed entry member).1.1 (keyPortable entry member).2) returns

theorem items_return (items : List Value) (wellFormed : AllWellFormed items)
    (portable : AllPortable items) : ∀ item ∈ items, item.Returns := by
  match items with
  | [] => simp
  | item :: rest =>
      exact List.forall_mem_cons.mpr ⟨json_returns item wellFormed.1 portable.1,
        items_return rest wellFormed.2 portable.2⟩

theorem entries_return (entries : List (Value × Value)) (wellFormed : EntriesWellFormed entries)
    (portable : EntriesPortable entries) : ∀ entry ∈ entries, entry.2.Returns := by
  match entries with
  | [] => simp
  | (key, value) :: rest =>
      exact List.forall_mem_cons.mpr ⟨json_returns value wellFormed.2.1 portable.2.1,
        entries_return rest wellFormed.2.2 portable.2.2⟩
end

/-- A well-formed value with finite doubles is read back from its JSON as an
equal value of the same type. -/
theorem json_roundTrip (v : Value) (wellFormed : v.WellFormed) (portable : v.Portable) :
    ∃ w, ofJson v.toJson v.ty = .ok w ∧ w.ty = v.ty ∧ (w == v) = true ∧ (v == w) = true :=
  have returns := json_returns v wellFormed portable
  ⟨v.carried, returns.read, returns.ty_eq, returns.equal', returns.equal⟩

def lampSettings : Value :=
  .dict .string .variant [
    (.string "warmth", .variant (.double 0.5)),
    (.string "paths", .variant (.array .objectPath [.objectPath "/lamp"])),
    (.string "levels", .variant (.dict (.int .byte) .bool
      [(.int .byte ⟨7, by decide, by decide⟩, .bool true)]))]

theorem lampSettings_roundTrip :
    lampSettings.WellFormed ∧ lampSettings.Portable ∧
      ∃ w, ofJson lampSettings.toJson lampSettings.ty = .ok w ∧ w.ty = lampSettings.ty ∧
        (w == lampSettings) = true ∧ (lampSettings == w) = true := by
  have wellFormed : lampSettings.WellFormed := by
    simp [lampSettings, WellFormed, EntriesWellFormed, AllWellFormed, ty]
    decide
  have portable : lampSettings.Portable := by
    simp [lampSettings, Portable, EntriesPortable, AllPortable, ty, Ty.KeysBasic, Ty.isBasic]
    decide
  exact ⟨wellFormed, portable, json_roundTrip lampSettings wellFormed portable⟩

end Value

end SimBus
