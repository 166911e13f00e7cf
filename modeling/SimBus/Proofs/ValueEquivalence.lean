import SimBus.Proofs.ValueEquality
import SimBus.Proofs.WellFormedValues
/-!
Equality of values is a partial equivalence. Only a NaN keeps a value from being equal to
itself, and equality is transitive. That it is symmetric, although only the entries of the left
dictionary are looked up in the right one, is a matter of counting: entries under unequal keys
cannot all meet the same one, so where there are as many on both sides none is left out.
-/

namespace SimBus.Value

mutual
/-- In the dictionaries at every depth of the value the keys are pairwise unequal. -/
def Keyed : Value → Prop
  | variant inner => Keyed inner
  | array _ items => AllKeyed items
  | tuple items => AllKeyed items
  | dict _ _ entries =>
      EntriesKeyed entries ∧ entries.Pairwise fun earlier later => (earlier.1 == later.1) = false
  | _ => True

def AllKeyed : List Value → Prop
  | [] => True
  | item :: rest => Keyed item ∧ AllKeyed rest

def EntriesKeyed : List (Value × Value) → Prop
  | [] => True
  | (key, value) :: rest => Keyed key ∧ Keyed value ∧ EntriesKeyed rest
end

mutual
theorem WellFormed.keyed (v : Value) (wellFormed : v.WellFormed) : v.Keyed := by
  cases v with
  | variant inner => exact WellFormed.keyed inner wellFormed
  | array element items => exact AllWellFormed.keyed items wellFormed.1
  | tuple items => exact AllWellFormed.keyed items wellFormed
  | dict key value entries =>
      exact ⟨EntriesWellFormed.keyed entries wellFormed.1, wellFormed.2.2⟩
  | _ => exact trivial

theorem AllWellFormed.keyed (items : List Value) (wellFormed : AllWellFormed items) :
    AllKeyed items := by
  match items with
  | [] => exact trivial
  | item :: rest =>
      exact ⟨WellFormed.keyed item wellFormed.1, AllWellFormed.keyed rest wellFormed.2⟩

theorem EntriesWellFormed.keyed (entries : List (Value × Value))
    (wellFormed : EntriesWellFormed entries) : EntriesKeyed entries := by
  match entries with
  | [] => exact trivial
  | (key, value) :: rest =>
      exact ⟨WellFormed.keyed key wellFormed.1, WellFormed.keyed value wellFormed.2.1,
        EntriesWellFormed.keyed rest wellFormed.2.2⟩
end

theorem beq_trans (a b c : Value) (first : (a == b) = true) (second : (b == c) = true) :
    (a == c) = true := by
  change beq a b = true at first
  change beq b c = true at second
  change beq a c = true
  rw [beq_eq_alike] at first second ⊢
  exact alike_trans Operator.beq_trans a b c first second

theorem beq_self_iff (v : Value) : (v == v) = true ↔ ∀ x ∈ v.doubles, x.isNaN = false := by
  change beq v v = true ↔ _
  rw [beq_eq_alike]
  constructor
  · intro equal x member
    obtain ⟨y, same⟩ := alike_doubles v v equal x member
    exact (Operator.beq_isNaN x y same).1
  · intro numbers
    apply alike_refl
    intro x member
    exact Operator.beq_self x (numbers x member)

/-- When each of one list meets one of another of the same length, and no two the same, none of
the other is left out. -/
theorem covered {α β : Type} (meets : α → β → Prop) (es : List α) (fs : List β)
    (counted : es.length = fs.length) (total : ∀ e ∈ es, ∃ f ∈ fs, meets e f)
    (apart : es.Pairwise fun d e => ∀ f ∈ fs, meets d f → ¬ meets e f) :
    ∀ f ∈ fs, ∃ e ∈ es, meets e f := by
  induction es generalizing fs with
  | nil =>
      obtain rfl := List.eq_nil_of_length_eq_zero counted.symm
      simp
  | cons e rest ih =>
      obtain ⟨met, member, meeting⟩ := total e List.mem_cons_self
      obtain ⟨before, after, rfl⟩ := List.append_of_mem member
      obtain ⟨alone, others⟩ := List.pairwise_cons.mp apart
      -- The one that the first meets is taken out, and the rest have enough with what is left.
      have restTotal : ∀ d ∈ rest, ∃ f ∈ before ++ after, meets d f := by
        intro d later
        obtain ⟨f, among, meetsIt⟩ := total d (List.mem_cons_of_mem e later)
        refine ⟨f, ?_, meetsIt⟩
        rcases List.mem_append.mp among with front | back
        · exact List.mem_append_left after front
        · rcases List.mem_cons.mp back with rfl | behind
          · exact absurd meetsIt (alone d later f member meeting)
          · exact List.mem_append_right before behind
      have kept : ∀ f ∈ before ++ after, f ∈ before ++ met :: after := by
        intro f among
        rw [List.mem_append, List.mem_cons]
        exact (List.mem_append.mp among).imp_right .inr
      have restCounted : rest.length = (before ++ after).length := by
        simp at counted ⊢
        omega
      have restApart := others.imp fun {_ _} separate f among => separate f (kept f among)
      have left := ih (before ++ after) restCounted restTotal restApart
      intro f among
      by_cases same : f = met
      · exact ⟨e, List.mem_cons_self, same ▸ meeting⟩
      · have remains : f ∈ before ++ after := by
          simpa [same] using among
        obtain ⟨d, later, meetsIt⟩ := left f remains
        exact ⟨d, List.mem_cons_of_mem e later, meetsIt⟩

/-- What equals the value has the value equal to itself. -/
def Mirrored (v : Value) : Prop := ∀ other, (v == other) = true → (other == v) = true

theorem within_symm (es fs : List (Value × Value)) (counted : es.length = fs.length)
    (distinct : es.Pairwise fun earlier later => (earlier.1 == later.1) = false)
    (mirrored : ∀ e ∈ es, e.1.Mirrored ∧ e.2.Mirrored) (inside : within es fs = true) :
    within fs es = true := by
  have total := (within_iff es fs).mp inside
  have apart : es.Pairwise fun d e => ∀ f ∈ fs, (d.1 == f.1) = true ∧ (d.2 == f.2) = true →
      ¬ ((e.1 == f.1) = true ∧ (e.2 == f.2) = true) := by
    refine distinct.imp_of_mem fun {d e} _ member differ f _ first second => ?_
    have equal := beq_trans d.1 f.1 e.1 first.1 ((mirrored e member).1 f.1 second.1)
    exact absurd equal (Bool.eq_false_iff.mp differ)
  rw [within_iff]
  intro f member
  obtain ⟨e, present, keys, values⟩ := covered _ es fs counted total apart f member
  exact ⟨e, present, (mirrored e present).1 f.1 keys, (mirrored e present).2 f.2 values⟩

mutual
theorem Keyed.mirrored (v : Value) (keyed : v.Keyed) : v.Mirrored := by
  intro other equal
  cases v with
  | double x =>
      cases other <;> try cases equal
      exact Operator.beq_symm _ _ equal
  | variant inner =>
      cases other <;> try cases equal
      exact Keyed.mirrored inner keyed _ equal
  | array element items =>
      cases other <;> try cases equal
      obtain ⟨elements, members⟩ := Bool.and_eq_true_iff.mp equal
      apply Bool.and_eq_true_iff.mpr
      exact ⟨BEq.symm elements, AllKeyed.mirrored items keyed _ members⟩
  | tuple items =>
      cases other <;> try cases equal
      exact AllKeyed.mirrored items keyed _ equal
  | dict key value entries =>
      cases other <;> try cases equal
      change (_ && _ && _ && _) = true at equal
      change (_ && _ && _ && _) = true
      simp only [Bool.and_eq_true, beq_iff_eq] at equal ⊢
      obtain ⟨⟨⟨keys, values⟩, counted⟩, inside⟩ := equal
      have back := within_symm entries _ counted keyed.2
        (EntriesKeyed.mirrored entries keyed.1) inside
      exact ⟨⟨⟨keys.symm, values.symm⟩, counted.symm⟩, back⟩
  | _ =>
      cases other <;> try cases equal
      change beq _ _ = true at equal ⊢
      simp only [beq, Bool.and_eq_true, beq_iff_eq] at equal ⊢
      simp_all

theorem AllKeyed.mirrored (items : List Value) (keyed : AllKeyed items) (others : List Value)
    (equal : beqList items others = true) : beqList others items = true := by
  match items, others with
  | [], [] => rfl
  | [], _ :: _ => cases equal
  | _ :: _, [] => cases equal
  | item :: rest, other :: others =>
      obtain ⟨first, tail⟩ := Bool.and_eq_true_iff.mp equal
      apply Bool.and_eq_true_iff.mpr
      exact ⟨Keyed.mirrored item keyed.1 other first, AllKeyed.mirrored rest keyed.2 others tail⟩

theorem EntriesKeyed.mirrored (entries : List (Value × Value)) (keyed : EntriesKeyed entries) :
    ∀ e ∈ entries, e.1.Mirrored ∧ e.2.Mirrored := by
  match entries with
  | [] => simp
  | (key, value) :: rest =>
      have first := And.intro (Keyed.mirrored key keyed.1) (Keyed.mirrored value keyed.2.1)
      exact List.forall_mem_cons.mpr ⟨first, EntriesKeyed.mirrored rest keyed.2.2⟩
end

theorem Keyed.beq_comm (a b : Value) (keyed : a.Keyed) (keyed' : b.Keyed) :
    (a == b) = (b == a) :=
  Bool.eq_iff_iff.mpr ⟨keyed.mirrored a b, keyed'.mirrored b a⟩

/-! Dictionaries, entry by entry. -/

theorem entry?_of_mem (wanted : Value) (entry : Value × Value) (entries : List (Value × Value))
    (distinct : entries.Pairwise fun earlier later => (earlier.1 == later.1) = false)
    (member : entry ∈ entries) (equal : (entry.1 == wanted) = true) (mirrored : entry.1.Mirrored) :
    entry? wanted entries = some entry.2 := by
  induction entries with
  | nil => cases member
  | cons first rest ih =>
      obtain ⟨fromFirst, others⟩ := List.pairwise_cons.mp distinct
      rcases List.mem_cons.mp member with rfl | later
      · exact if_pos equal
      · have differs : ¬ (first.1 == wanted) = true := fun same =>
          Bool.eq_false_iff.mp (fromFirst entry later)
            (beq_trans first.1 wanted entry.1 same (mirrored wanted equal))
        exact (if_neg differs).trans (ih others later)

/-- The key is bound in both to equal values. -/
def BoundAlike (key a b : Value) : Prop :=
  ∃ x y, a.get? key = some x ∧ b.get? key = some y ∧ (x == y) = true

section Dictionaries

variable (key value : Ty) (es fs : List (Value × Value))

theorem dict_beq_iff_within :
    (dict key value es == dict key value fs) = true ↔
      es.length = fs.length ∧ within es fs = true := by
  change (key == key && value == value && es.length == fs.length && within es fs) = true ↔ _
  simp

variable (keyed : (dict key value es).Keyed) (keyed' : (dict key value fs).Keyed)
include keyed keyed'

theorem boundAlike_of_beq (equal : (dict key value es == dict key value fs) = true)
    (e : Value × Value) (member : e ∈ es) :
    BoundAlike e.1 (dict key value es) (dict key value fs) := by
  have inside := ((dict_beq_iff_within key value es fs).mp equal).2
  obtain ⟨f, present, keys, values⟩ := (within_iff es fs).mp inside e member
  have left := (EntriesKeyed.mirrored es keyed.1 e member).1
  have right := (EntriesKeyed.mirrored fs keyed'.1 f present).1
  have back : (f.1 == e.1) = true := left f.1 keys
  have self : (e.1 == e.1) = true := beq_trans e.1 f.1 e.1 keys back
  refine ⟨e.2, f.2, ?_, ?_, values⟩
  · exact entry?_of_mem e.1 e es keyed.2 member self left
  · exact entry?_of_mem e.1 f fs keyed'.2 present back right

theorem within_of_boundAlike
    (bound : ∀ e ∈ es, BoundAlike e.1 (dict key value es) (dict key value fs)) :
    within es fs = true := by
  rw [within_iff]
  intro e member
  obtain ⟨x, y, here, there, values⟩ := bound e member
  obtain ⟨found, present, keys⟩ := entry?_mem e.1 y fs there
  have left := (EntriesKeyed.mirrored es keyed.1 e member).1
  have forth : (e.1 == found) = true := EntriesKeyed.mirrored fs keyed'.1 _ present |>.1 e.1 keys
  have self : (e.1 == e.1) = true := beq_trans e.1 found e.1 forth keys
  -- Under its own key the entry finds no other one.
  obtain rfl : e.2 = x :=
    Option.some.inj ((entry?_of_mem e.1 e es keyed.2 member self left).symm.trans here)
  exact ⟨(found, y), present, forth, values⟩

theorem dict_beq_iff :
    (dict key value es == dict key value fs) = true ↔ es.length = fs.length ∧
      ∀ k ∈ es.map Prod.fst ++ fs.map Prod.fst,
        BoundAlike k (dict key value es) (dict key value fs) := by
  constructor
  · intro equal
    refine ⟨((dict_beq_iff_within key value es fs).mp equal).1, ?_⟩
    intro k member
    rcases List.mem_append.mp member with ofLeft | ofRight
    · obtain ⟨e, present, rfl⟩ := List.mem_map.mp ofLeft
      exact boundAlike_of_beq key value es fs keyed keyed' equal e present
    · obtain ⟨f, present, rfl⟩ := List.mem_map.mp ofRight
      have swapped := keyed.mirrored _ _ equal
      obtain ⟨y, x, there, here, values⟩ :=
        boundAlike_of_beq key value fs es keyed' keyed swapped f present
      obtain ⟨k', bound, -⟩ := entry?_mem f.1 y fs there
      exact ⟨x, y, here, there, (EntriesKeyed.mirrored fs keyed'.1 _ bound).2 x values⟩
  · rintro ⟨counted, bound⟩
    rw [dict_beq_iff_within]
    refine ⟨counted, within_of_boundAlike key value es fs keyed keyed' fun e member => ?_⟩
    exact bound e.1 (List.mem_append_left _ (List.mem_map_of_mem member))

end Dictionaries

/-- Values whose dictionaries have unequal keys are equal both ways round; equality is transitive;
all and only the values without a NaN equal themselves; and dictionaries of the same types are
equal when they have as many entries and bind each other's keys to equal values. That the keys
are basic and of the types announced, as the checked constructors see to, is not needed. -/
theorem beq_partial_equivalence :
    (∀ a b : Value, a.Keyed → b.Keyed → (a == b) = (b == a)) ∧
      (∀ a b c : Value, (a == b) = true → (b == c) = true → (a == c) = true) ∧
      (∀ v : Value, (v == v) = true ↔ ∀ x ∈ v.doubles, x.isNaN = false) ∧
      ∀ key value es fs, (dict key value es).Keyed → (dict key value fs).Keyed →
        ((dict key value es == dict key value fs) = true ↔ es.length = fs.length ∧
          ∀ k ∈ es.map Prod.fst ++ fs.map Prod.fst,
            BoundAlike k (dict key value es) (dict key value fs)) :=
  ⟨Keyed.beq_comm, beq_trans, beq_self_iff, dict_beq_iff⟩

def tides : Value :=
  .dict .double .string [(.double 0.0, .string "low"), (.double 1.5, .string "high")]

def tidesReversed : Value :=
  .dict .double .string [(.double 1.5, .string "high"), (.double (-0.0), .string "low")]

theorem tides_equal :
    tides.Keyed ∧ tidesReversed.Keyed ∧ (tides == tidesReversed) = (tidesReversed == tides) ∧
      (tides == tides) = true ∧ BoundAlike (.double 0.0) tides tidesReversed := by
  obtain ⟨symmetric, transitive, -, entries⟩ := beq_partial_equivalence
  have keyed : tides.Keyed := by
    refine ⟨?_, by decide +kernel⟩
    exact ⟨trivial, trivial, trivial, trivial, trivial⟩
  have keyed' : tidesReversed.Keyed := by
    refine ⟨?_, by decide +kernel⟩
    exact ⟨trivial, trivial, trivial, trivial, trivial⟩
  have equal : (tides == tidesReversed) = true := by decide +kernel
  have swapped := symmetric tides tidesReversed keyed keyed'
  have bound := ((entries _ _ _ _ keyed keyed').mp equal).2
  refine ⟨keyed, keyed', swapped, ?_, bound _ List.mem_cons_self⟩
  exact transitive tides tidesReversed tides equal (swapped ▸ equal)

end SimBus.Value
