import SimBus.Operator
/-!
The order of doubles. Two doubles have an order unless one of them is a NaN:
their unpacked forms are compared by sign, exponent and mantissa, and swapping
the two swaps the outcome. Equality, which is one of the outcomes, is transitive
and holds between a number and itself.
-/

namespace SimBus.Operator

open Float.Model (UnpackedFloat)
open Float.Model.UnpackedFloat (Sign)

theorem compareSigns_swap (s t : Sign) : (compare s t).swap = compare t s := by
  cases s <;> cases t <;> rfl

theorem unpacked_compare_swap (a b : UnpackedFloat) :
    (a.compare b).map Ordering.swap = b.compare a := by
  cases a with
  | notANumber => cases b <;> rfl
  | infinity s =>
      cases b with
      | infinity t => exact congrArg some (compareSigns_swap s t)
      | notANumber => cases s <;> rfl
      | zero t => cases s <;> rfl
      | finite t => cases s <;> cases t <;> rfl
  | zero s =>
      cases b with
      | infinity t => cases t <;> rfl
      | notANumber => rfl
      | zero t => rfl
      | finite t => cases t <;> rfl
  | finite s m e =>
      cases b with
      | infinity t => cases s <;> cases t <;> rfl
      | notANumber => cases s <;> rfl
      | zero t => cases s <;> rfl
      | finite t n f =>
          have magnitudes : ((compare e f).then (compare m n)).swap =
              (compare f e).then (compare n m) := by
            rw [Ordering.swap_then, ← Std.OrientedCmp.eq_swap, ← Std.OrientedCmp.eq_swap]
          cases s <;> cases t
          case negative.negative => exact congrArg (fun o => some o.swap) magnitudes
          case positive.positive => exact congrArg some magnitudes
          all_goals rfl

theorem unpacked_compare_isNone (a b : UnpackedFloat) :
    (a.compare b).isNone = (a.isNaN || b.isNaN) := by
  cases a with
  | notANumber => cases b <;> rfl
  | infinity s => cases b <;> cases s <;> rfl
  | zero s =>
      cases b with
      | finite t => cases t <;> rfl
      | infinity t => cases t <;> rfl
      | _ => rfl
  | finite s =>
      cases b with
      | finite t => cases s <;> cases t <;> rfl
      | infinity t => cases s <;> cases t <;> rfl
      | _ => cases s <;> rfl

theorem unpacked_compare_none_iff (a b : UnpackedFloat) :
    a.compare b = none ↔ a.isNaN = true ∨ b.isNaN = true := by
  rw [← Option.isNone_iff_eq_none, unpacked_compare_isNone, Bool.or_eq_true]

theorem lt_iff_compare (x y : Float) :
    x < y ↔ x.toModel.unpack.compare y.toModel.unpack = some .lt := by
  simp [LT.lt, Float.lt, Float.Model.lt, UnpackedFloat.lt]

theorem beq_iff_compare (x y : Float) :
    (x == y) = true ↔ x.toModel.unpack.compare y.toModel.unpack = some .eq := by
  change (x.toModel.unpack.compare y.toModel.unpack == some .eq) = true ↔ _
  rw [beq_iff_eq]

theorem orderDoubles_none_iff (x y : Float) :
    orderDoubles x y = none ↔ x.isNaN = true ∨ y.isNaN = true := by
  have swapped := unpacked_compare_swap x.toModel.unpack y.toModel.unpack
  rw [orderDoubles]
  simp only [lt_iff_compare, beq_iff_compare, ← swapped]
  change _ ↔ x.toModel.unpack.isNaN = true ∨ y.toModel.unpack.isNaN = true
  rw [← unpacked_compare_none_iff]
  cases x.toModel.unpack.compare y.toModel.unpack with
  | none => simp
  | some o => cases o <;> simp

/-! Equality. -/

/-- Equal doubles are the same one, but for the two zeros. -/
theorem unpacked_compare_eq (a b : UnpackedFloat) (equal : a.compare b = some .eq) :
    a = b ∨ (∃ s, a = .zero s) ∧ ∃ t, b = .zero t := by
  cases a with
  | notANumber => cases b <;> cases equal
  | infinity s =>
      cases b with
      | infinity t =>
          left
          cases s <;> cases t <;> first | rfl | cases equal
      | _ => cases s <;> cases equal
  | zero s =>
      cases b with
      | zero t => exact .inr ⟨⟨s, rfl⟩, t, rfl⟩
      | infinity t => cases t <;> cases equal
      | notANumber => cases equal
      | finite t => cases t <;> cases equal
  | finite s m e =>
      cases b with
      | finite t n f =>
          left
          have magnitudes (same : (compare e f).then (compare m n) = .eq) : e = f ∧ m = n := by
            simpa only [Ordering.then_eq_eq, Std.LawfulEqCmp.compare_eq_iff_eq] using same
          cases s <;> cases t
          case negative.negative =>
            obtain ⟨rfl, rfl⟩ := magnitudes (Ordering.swap_eq_eq.mp (Option.some.inj equal))
            rfl
          case positive.positive =>
            obtain ⟨rfl, rfl⟩ := magnitudes (Option.some.inj equal)
            rfl
          all_goals cases equal
      | infinity t => cases s <;> cases t <;> cases equal
      | notANumber => cases s <;> cases equal
      | zero t => cases s <;> cases equal

theorem unpacked_compare_eq_trans (a b c : UnpackedFloat) (first : a.compare b = some .eq)
    (second : b.compare c = some .eq) : a.compare c = some .eq := by
  rcases unpacked_compare_eq a b first with rfl | ⟨⟨s, rfl⟩, t, rfl⟩
  · exact second
  · rcases unpacked_compare_eq _ c second with rfl | ⟨-, u, rfl⟩
    · exact first
    · rfl

theorem unpacked_compare_self (a : UnpackedFloat) (number : a.isNaN = false) :
    a.compare a = some .eq := by
  have swapped := unpacked_compare_swap a a
  have compared := unpacked_compare_isNone a a
  cases order : a.compare a with
  | none => simp [order, number] at compared
  | some o =>
      -- An order that is its own reverse can only be equality.
      cases o <;> simp [order] at swapped ⊢

theorem beq_trans (x y z : Float) (first : (x == y) = true) (second : (y == z) = true) :
    (x == z) = true := by
  rw [beq_iff_compare] at first second ⊢
  exact unpacked_compare_eq_trans _ _ _ first second

theorem beq_symm (x y : Float) (equal : (x == y) = true) : (y == x) = true := by
  rw [beq_iff_compare] at equal ⊢
  rw [← unpacked_compare_swap, equal]
  rfl

theorem beq_self (x : Float) (number : x.isNaN = false) : (x == x) = true := by
  rw [beq_iff_compare]
  exact unpacked_compare_self _ number

theorem beq_isNaN (x y : Float) (equal : (x == y) = true) : x.isNaN = false ∧ y.isNaN = false := by
  rw [beq_iff_compare] at equal
  have compared := unpacked_compare_isNone x.toModel.unpack y.toModel.unpack
  rw [equal] at compared
  exact Bool.or_eq_false_iff.mp compared.symm

theorem isNaN_of_isFinite (x : Float) (finite : x.isFinite = true) : x.isNaN = false := by
  change x.toModel.unpack.isFinite = true at finite
  change x.toModel.unpack.isNaN = false
  cases unpacked : x.toModel.unpack with
  | notANumber =>
      rw [unpacked] at finite
      cases finite
  | infinity | zero | finite => rfl

end SimBus.Operator
