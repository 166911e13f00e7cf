import SimBus.Proofs.BuiltinTypes
/-!
Arrays as sequences. The functions on arrays succeed exactly for the indices inside the array, an
insertion also for the one behind its last item, whatever type of integer the index has. They are
about the one item at the index, and what is inserted can be got and removed again.
-/

namespace SimBus

namespace Eval

/-- A computation that succeeds on a condition only, draws nothing, and fails with the error
where the condition does not hold. -/
structure Answers {α : Type} (m : Eval α) (condition : Prop) (returns : α → Prop)
    (e : EvalError) : Prop where
  succeeds : (∃ result, m = pure result) ↔ condition
  returned : ∀ result, m = pure result → returns result
  failed : ¬ condition → m = throw e

theorem answers_of {α : Type} {m : Eval α} {condition : Prop} {returns : α → Prop} {e : EvalError}
    (returned : condition → ∃ result, m = pure result ∧ returns result)
    (failed : ¬ condition → m = throw e) : m.Answers condition returns e := by
  have holds (result : α) (done : m = pure result) : condition :=
    Classical.byContradiction fun fails =>
      pure_ne_throw result e (done.symm.trans (failed fails))
  refine ⟨⟨fun ⟨result, done⟩ => holds result done, fun inside => ?_⟩, ?_, failed⟩
  · obtain ⟨result, done, -⟩ := returned inside
    exact ⟨result, done⟩
  · intro result done
    obtain ⟨result', done', returns'⟩ := returned (holds result done)
    exact pure_inj result' result (done'.symm.trans done) ▸ returns'

end Eval

namespace Builtin

/-- The array of the items, all of which have the element type. It is well-formed if the parts
are that it is made of. -/
structure MadeOf (element : Ty) (parts items : List Value) (made : Value) : Prop where
  made_eq : made = .array element items
  typed : ∀ item ∈ items, item.ty = element
  wellFormed : (∀ part ∈ parts, part.WellFormed) → made.WellFormed

theorem madeOf_subset (element : Ty) (parts items : List Value) (included : items ⊆ parts)
    (typed : ∀ part ∈ parts, part.ty = element) :
    MadeOf element parts items (.array element items) := by
  refine ⟨rfl, fun item member => typed item (included member), fun wellFormed => ?_⟩
  rw [Value.wellFormed_array_iff]
  exact fun item member => ⟨wellFormed item (included member), typed item (included member)⟩

section Indexed

variable {element : Ty} {items : List Value} {kind : IntKind} {index : kind.Number}

theorem position_inside (bound length : Nat) (inside : 0 ≤ index.val ∧ index.val < bound) :
    position (.int kind index) bound length = pure index.val.toNat :=
  if_pos inside

theorem position_outside (bound length : Nat) (outside : ¬ (0 ≤ index.val ∧ index.val < bound)) :
    position (.int kind index) bound length = throw (.indexOutOfRange index.val length) :=
  if_neg outside

theorem arrayGet_rule : arrayGet.rule (Value.tuple [.array element items, .int kind index]).ty =
    some element := by
  rw [Value.ty_tuple]
  rfl

theorem arrayRemove_rule :
    arrayRemove.rule (Value.tuple [.array element items, .int kind index]).ty =
      some (.array element) := by
  rw [Value.ty_tuple]
  rfl

theorem arrayInsert_rule (x : Value) (fits : x.ty = element) :
    arrayInsert.rule (Value.tuple [.array element items, .int kind index, x]).ty =
      some (.array element) := by
  rw [Value.ty_tuple]
  exact if_pos fits.symm

theorem arrayGet_inside (typed : ∀ item ∈ items, item.ty = element) (k : Nat)
    (denotes : index.val = k) (below : k < items.length) :
    arrayGet.call (.tuple [.array element items, .int kind index]) = pure items[k] := by
  refine call_returns _ _ _ element arrayGet_rule ?_ (typed _ (List.getElem_mem below))
  simp only [arrayGet]
  rw [position_inside items.length items.length (by omega), pure_bind, denotes, Int.toNat_natCast,
    List.getElem?_eq_getElem below]

theorem arrayGet_outside (outside : ¬ (0 ≤ index.val ∧ index.val < items.length)) :
    arrayGet.call (.tuple [.array element items, .int kind index]) =
      throw (.indexOutOfRange index.val items.length) := by
  refine call_fails _ _ element _ arrayGet_rule ?_
  simp only [arrayGet]
  rw [position_outside items.length items.length outside]
  rfl

theorem arrayRemove_inside (k : Nat) (denotes : index.val = k) (below : k < items.length) :
    arrayRemove.call (.tuple [.array element items, .int kind index]) =
      pure (.array element (items.take k ++ items.drop (k + 1))) := by
  refine call_returns _ _ _ (.array element) arrayRemove_rule ?_ rfl
  simp only [arrayRemove]
  rw [position_inside items.length items.length (by omega), pure_bind, denotes, Int.toNat_natCast,
    List.eraseIdx_eq_take_drop_succ]

theorem arrayRemove_outside (outside : ¬ (0 ≤ index.val ∧ index.val < items.length)) :
    arrayRemove.call (.tuple [.array element items, .int kind index]) =
      throw (.indexOutOfRange index.val items.length) := by
  refine call_fails _ _ (.array element) _ arrayRemove_rule ?_
  simp only [arrayRemove]
  rw [position_outside items.length items.length outside]
  rfl

theorem arrayInsert_inside (x : Value) (fits : x.ty = element) (k : Nat)
    (denotes : index.val = k) (within : k ≤ items.length) :
    arrayInsert.call (.tuple [.array element items, .int kind index, x]) =
      pure (.array element (items.take k ++ x :: items.drop k)) := by
  refine call_returns _ _ _ (.array element) (arrayInsert_rule x fits) ?_ rfl
  simp only [arrayInsert]
  rw [position_inside (items.length + 1) items.length (by omega), pure_bind, denotes,
    Int.toNat_natCast]

theorem arrayInsert_outside (x : Value) (fits : x.ty = element)
    (outside : ¬ (0 ≤ index.val ∧ index.val ≤ items.length)) :
    arrayInsert.call (.tuple [.array element items, .int kind index, x]) =
      throw (.indexOutOfRange index.val items.length) := by
  refine call_fails _ _ (.array element) _ (arrayInsert_rule x fits) ?_
  simp only [arrayInsert]
  rw [position_outside (items.length + 1) items.length (by omega)]
  rfl

/-- The item stands at the index, in front of the rest, and can be got and removed there again. -/
structure Inserted (element : Ty) (items : List Value) (index : kind.Number) (x made : Value) :
    Prop where
  madeOf : MadeOf element (x :: items)
    (items.take index.val.toNat ++ x :: items.drop index.val.toNat) made
  length_eq :
    (items.take index.val.toNat ++ x :: items.drop index.val.toNat).length = items.length + 1
  removed : arrayRemove.call (.tuple [made, .int kind index]) = pure (.array element items)
  found : arrayGet.call (.tuple [made, .int kind index]) = pure x

theorem inserted_of_inside (typed : ∀ item ∈ items, item.ty = element) (x : Value)
    (fits : x.ty = element) (k : Nat) (denotes : index.val = k) (within : k ≤ items.length) :
    Inserted element items index x (.array element (items.take k ++ x :: items.drop k)) := by
  have position : index.val.toNat = k := by omega
  have front : (items.take k).length = k := List.length_take_of_le within
  have length_eq : (items.take k ++ x :: items.drop k).length = items.length + 1 := by
    simp
    omega
  have below : k < (items.take k ++ x :: items.drop k).length := by omega
  have madeOf : MadeOf element (x :: items) (items.take k ++ x :: items.drop k)
      (.array element (items.take k ++ x :: items.drop k)) := by
    apply madeOf_subset
    · apply List.append_subset.mpr
      exact ⟨fun item member => List.mem_cons_of_mem x (List.mem_of_mem_take member),
        List.cons_subset_cons x (List.drop_subset k items)⟩
    · exact List.forall_mem_cons.mpr ⟨fits, typed⟩
  refine ⟨position ▸ madeOf, position ▸ length_eq, ?_, ?_⟩
  · rw [arrayRemove_inside k denotes below, List.take_left' front, ← List.drop_drop,
      List.drop_left' front, List.drop_one, List.tail_cons, List.take_append_drop]
  · rw [arrayGet_inside madeOf.typed k denotes below]
    simp [front]

structure Removed (element : Ty) (items : List Value) (index : kind.Number) (made : Value) :
    Prop where
  madeOf : MadeOf element items
    (items.take index.val.toNat ++ items.drop (index.val.toNat + 1)) made
  length_eq :
    (items.take index.val.toNat ++ items.drop (index.val.toNat + 1)).length = items.length - 1

theorem removed_of_inside (typed : ∀ item ∈ items, item.ty = element) (k : Nat)
    (denotes : index.val = k) (below : k < items.length) :
    Removed element items index (.array element (items.take k ++ items.drop (k + 1))) := by
  have position : index.val.toNat = k := by omega
  constructor
  · rw [position]
    refine madeOf_subset element items _ ?_ typed
    exact List.append_subset.mpr ⟨List.take_subset k items, List.drop_subset (k + 1) items⟩
  · rw [position, List.length_append, List.length_take, List.length_drop]
    omega

end Indexed

/-- What getting, inserting and removing at an index do to an array, and for which indices they
do it. An item that is got is the one at the index, so it is one of those that were there. -/
theorem array_sequence (element : Ty) (items : List Value)
    (typed : ∀ item ∈ items, item.ty = element) (kind : IntKind) (index : kind.Number) (x : Value)
    (fits : x.ty = element) :
    (arrayGet.call (.tuple [.array element items, .int kind index])).Answers
        (0 ≤ index.val ∧ index.val < items.length)
        (fun item => items[index.val.toNat]? = some item)
        (.indexOutOfRange index.val items.length) ∧
      (arrayInsert.call (.tuple [.array element items, .int kind index, x])).Answers
        (0 ≤ index.val ∧ index.val ≤ items.length)
        (Inserted element items index x)
        (.indexOutOfRange index.val items.length) ∧
      (arrayRemove.call (.tuple [.array element items, .int kind index])).Answers
        (0 ≤ index.val ∧ index.val < items.length)
        (Removed element items index)
        (.indexOutOfRange index.val items.length) := by
  refine ⟨Eval.answers_of ?_ arrayGet_outside, Eval.answers_of ?_ (arrayInsert_outside x fits),
    Eval.answers_of ?_ arrayRemove_outside⟩
  · rintro ⟨nonneg, below⟩
    obtain ⟨k, denotes⟩ := Int.eq_ofNat_of_zero_le nonneg
    have inside : k < items.length := by omega
    refine ⟨_, arrayGet_inside typed k denotes inside, ?_⟩
    rw [denotes, Int.toNat_natCast, List.getElem?_eq_getElem inside]
  · rintro ⟨nonneg, within⟩
    obtain ⟨k, denotes⟩ := Int.eq_ofNat_of_zero_le nonneg
    have inside : k ≤ items.length := by omega
    exact ⟨_, arrayInsert_inside x fits k denotes inside,
      inserted_of_inside typed x fits k denotes inside⟩
  · rintro ⟨nonneg, below⟩
    obtain ⟨k, denotes⟩ := Int.eq_ofNat_of_zero_le nonneg
    have inside : k < items.length := by omega
    exact ⟨_, arrayRemove_inside k denotes inside, removed_of_inside typed k denotes inside⟩

def shelfEnd : IntKind.int16.Number := ⟨2, by decide, by decide⟩

theorem shelf_sequence :
    (∀ item ∈ [Value.string "cup", .string "jug"], item.ty = .string) ∧
      (Value.string "pot").ty = .string ∧
      arrayGet.call (.tuple [.array .string [.string "cup", .string "jug"], .int .int16 shelfEnd]) =
        throw (.indexOutOfRange 2 2) ∧
      ∃ made, arrayInsert.call (.tuple [.array .string [.string "cup", .string "jug"],
          .int .int16 shelfEnd, .string "pot"]) = pure made ∧
        Inserted .string [.string "cup", .string "jug"] shelfEnd (.string "pot") made := by
  have typed : ∀ item ∈ [Value.string "cup", .string "jug"], item.ty = .string := by
    simp [Value.ty]
  obtain ⟨gets, inserts, -⟩ := array_sequence .string [.string "cup", .string "jug"] typed .int16
    shelfEnd (.string "pot") rfl
  obtain ⟨made, inserted⟩ := inserts.succeeds.mpr (by decide)
  exact ⟨typed, rfl, gets.failed (by decide), made, inserted, inserts.returned made inserted⟩

end Builtin

end SimBus
