import Mathlib.Algebra.Ring.Int.Defs
import SimBus.Proofs.OperatorTypes
/-!
Integer arithmetic is exact or refused. A result that the kind of the operands can hold is that
number and a value of the kind, and every other one is an overflow. Quotients are cut off toward
zero, so quotient and remainder make up the dividend again.
-/

namespace SimBus

namespace IntKind

def Holds (kind : IntKind) (z : Int) : Prop := kind.lo ≤ z ∧ z ≤ kind.hi

theorem number_held {kind : IntKind} (number : kind.Number) : kind.Holds number.val :=
  ⟨number.lo_le, number.le_hi⟩

theorem number?_held (kind : IntKind) (z : Int) (held : kind.Holds z) :
    kind.number? z = some ⟨z, held.1, held.2⟩ :=
  dif_pos held

theorem number?_eq_none_iff (kind : IntKind) (z : Int) :
    kind.number? z = none ↔ ¬ kind.Holds z := by
  simp [number?, Holds]

theorem held_between {kind : IntKind} {a z : Int} (held : kind.Holds a)
    (between : 0 ≤ z ∧ z ≤ a ∨ a ≤ z ∧ z ≤ 0) : kind.Holds z := by
  unfold Holds at *
  cases kind <;> simp only [lo, hi] at * <;> omega

end IntKind

namespace Operator

open IntKind (Holds number_held number?_held number?_eq_none_iff held_between)

/-- The result is the number as a value of the kind, or an overflow if the kind cannot hold it. -/
structure Exactly (operation : String) (kind : IntKind) (z : Int)
    (result : Except EvalError Value) : Prop where
  held : kind.Holds z → ∃ number : kind.Number, number.val = z ∧ result = .ok (.int kind number)
  overflows : ¬ kind.Holds z → result = .error (.overflow operation (.int kind))

theorem exact_exactly (operation : String) (kind : IntKind) (z : Int) :
    Exactly operation kind z (exact operation kind z) := by
  constructor
  · intro held
    exact ⟨⟨z, held.1, held.2⟩, rfl, by rw [exact, number?_held kind z held]⟩
  · intro outside
    rw [exact, (number?_eq_none_iff kind z).mpr outside]

theorem Exactly.ok_iff {operation : String} {kind : IntKind} {z : Int}
    {result : Except EvalError Value} (exactly : Exactly operation kind z result) (v : Value) :
    result = .ok v ↔ ∃ number : kind.Number, number.val = z ∧ v = .int kind number := by
  by_cases held : kind.Holds z
  · obtain ⟨number, rfl, made⟩ := exactly.held held
    rw [made]
    constructor
    · intro same
      exact ⟨number, rfl, (Except.ok.inj same).symm⟩
    · rintro ⟨other, same, rfl⟩
      obtain rfl : number = other := by
        cases number
        cases other
        simpa using same.symm
      rfl
  · rw [exactly.overflows held]
    constructor
    · intro same
      cases same
    · rintro ⟨number, rfl, -⟩
      exact absurd (number_held number) held

variable {kind : IntKind}

theorem apply_int (op : BinaryOp) (arithmetic : isArithmetic op = true) (a b : kind.Number) :
    apply op (.int kind a) (.int kind b) = intArithmetic op kind a.val b.val := by
  cases op <;> simp only [isArithmetic, Bool.false_eq_true] at arithmetic
  all_goals exact if_pos rfl

/-! Division. -/

/-- The quotient is cut off toward zero: what remains of the dividend is smaller than the
divisor, and has the sign of the dividend if it is not zero. -/
structure Truncates (a b quotient remainder : Int) : Prop where
  sum : quotient * b + remainder = a
  smaller : remainder.natAbs < b.natAbs
  sign : 0 ≤ remainder ∧ remainder ≤ a ∨ a ≤ remainder ∧ remainder ≤ 0

theorem tdiv_truncates (a b : Int) (divisor : b ≠ 0) :
    Truncates a b (a.tdiv b) (a.tmod b) := by
  have size := Int.natAbs_tmod a b
  have below : a.natAbs % b.natAbs < b.natAbs := Nat.mod_lt _ (Int.natAbs_pos.mpr divisor)
  have within : a.natAbs % b.natAbs ≤ a.natAbs := Nat.mod_le _ _
  refine ⟨Int.tdiv_mul_add_tmod a b, by omega, ?_⟩
  rcases Int.le_total 0 a with positive | negative
  · have sign := Int.tmod_nonneg b positive
    omega
  · have sign := Int.tmod_nonneg b (Int.neg_nonneg_of_nonpos negative)
    rw [Int.neg_tmod] at sign
    omega

theorem Truncates.multiple {a b quotient remainder : Int}
    (truncates : Truncates a b quotient remainder) :
    0 ≤ quotient * b ∧ quotient * b ≤ a ∨ a ≤ quotient * b ∧ quotient * b ≤ 0 := by
  have sum := truncates.sum
  have sign := truncates.sign
  generalize quotient * b = multiple at sum ⊢
  omega

theorem div_exactly (a b : kind.Number) (divisor : b.val ≠ 0) :
    Exactly "/" kind (a.val.tdiv b.val) (apply .div (.int kind a) (.int kind b)) := by
  rw [apply_int .div rfl, intArithmetic, if_neg divisor]
  exact exact_exactly _ kind _

theorem rem_exactly (a b : kind.Number) (divisor : b.val ≠ 0) :
    Exactly "%" kind (a.val.tmod b.val) (apply .rem (.int kind a) (.int kind b)) := by
  rw [apply_int .rem rfl, intArithmetic, if_neg divisor]
  exact exact_exactly _ kind _

theorem exact_ne_divisionByZero (operation : String) (kind : IntKind) (z : Int) :
    exact operation kind z ≠ .error .divisionByZero := by
  intro refused
  rcases exact_cases operation kind z with ⟨number, made⟩ | overflow
  · cases made.symm.trans refused
  · cases overflow.symm.trans refused

theorem divisionByZero_iff (op : BinaryOp) (divides : op = .div ∨ op = .rem) (a b : kind.Number) :
    apply op (.int kind a) (.int kind b) = .error .divisionByZero ↔ b.val = 0 := by
  by_cases zero : b.val = 0
  · refine iff_of_true ?_ zero
    rcases divides with rfl | rfl
    all_goals rw [apply_int _ rfl, intArithmetic, if_pos zero]
  · refine iff_of_false ?_ zero
    rcases divides with rfl | rfl
    all_goals
      rw [apply_int _ rfl, intArithmetic, if_neg zero]
      exact exact_ne_divisionByZero _ kind _

theorem divided_restored (a b : kind.Number) (q r : Value)
    (divides : apply .div (.int kind a) (.int kind b) = .ok q)
    (remains : apply .rem (.int kind a) (.int kind b) = .ok r) :
    ∃ multiple, apply .mul q (.int kind b) = .ok multiple ∧
      apply .add multiple r = .ok (.int kind a) := by
  have divisor : b.val ≠ 0 := fun zero => by
    rw [(divisionByZero_iff .div (.inl rfl) a b).mpr zero] at divides
    cases divides
  have truncates := tdiv_truncates a.val b.val divisor
  obtain ⟨quotient, sameQuotient, rfl⟩ := ((div_exactly a b divisor).ok_iff q).mp divides
  obtain ⟨remainder, sameRemainder, rfl⟩ := ((rem_exactly a b divisor).ok_iff r).mp remains
  rw [← sameQuotient, ← sameRemainder] at truncates
  have multiplied := exact_exactly "*" kind (quotient.val * b.val)
  obtain ⟨multiple, sameMultiple, made⟩ :=
    multiplied.held (held_between (number_held a) truncates.multiple)
  refine ⟨.int kind multiple, ?_, ?_⟩
  · rw [apply_int .mul rfl]
    exact made
  · rw [apply_int .add rfl]
    exact ((exact_exactly "+" kind _).ok_iff _).mpr
      ⟨a, by rw [sameMultiple, truncates.sum], rfl⟩

/-! Integers of 128 bits. -/

/-- The number in 128 bits with a sign, unless it is too great for them. -/
def wide? (z : Int) : Option Int := if -2 ^ 127 ≤ z ∧ z < 2 ^ 127 then some z else none

def narrow (operation : String) (kind : IntKind) (z : Int) : Except EvalError Value :=
  match wide? z with
  | some z => exact operation kind z
  | none => .error (.overflow operation (.int kind))

theorem held_wide {z : Int} (held : kind.Holds z) : wide? z = some z ∧ wide? (-z) = some (-z) := by
  unfold IntKind.Holds at held
  constructor
  all_goals
    refine if_pos ?_
    cases kind <;> simp only [IntKind.lo, IntKind.hi] at held <;> omega

theorem narrow_eq (operation : String) (kind : IntKind) (z : Int) :
    narrow operation kind z = exact operation kind z := by
  by_cases held : kind.Holds z
  · rw [narrow, (held_wide held).1]
  · rw [narrow, (exact_exactly operation kind z).overflows held]
    split
    · next w fits =>
        obtain rfl : z = w := by
          unfold wide? at fits
          split at fits
          · exact Option.some.inj fits
          · cases fits
        exact (exact_exactly operation kind z).overflows held
    · rfl

structure ExactOn (kind : IntKind) (a b : kind.Number) : Prop where
  sum : Exactly "+" kind (a.val + b.val) (apply .add (.int kind a) (.int kind b))
  difference : Exactly "-" kind (a.val - b.val) (apply .sub (.int kind a) (.int kind b))
  product : Exactly "*" kind (a.val * b.val) (apply .mul (.int kind a) (.int kind b))
  negation : Exactly "-" kind (-a.val) (negate (.int kind a))
  undivided : ∀ op, op = .div ∨ op = .rem →
    (apply op (.int kind a) (.int kind b) = .error .divisionByZero ↔ b.val = 0)
  divided : b.val ≠ 0 → ∃ quotient remainder, Truncates a.val b.val quotient remainder ∧
    Exactly "/" kind quotient (apply .div (.int kind a) (.int kind b)) ∧
    Exactly "%" kind remainder (apply .rem (.int kind a) (.int kind b))
  restored : ∀ q r, apply .div (.int kind a) (.int kind b) = .ok q →
    apply .rem (.int kind a) (.int kind b) = .ok r →
    ∃ multiple, apply .mul q (.int kind b) = .ok multiple ∧
      apply .add multiple r = .ok (.int kind a)
  /-- Values of another type do not come out. -/
  typed : ∀ op v, isArithmetic op = true → apply op (.int kind a) (.int kind b) = .ok v →
    v.ty = .int kind
  /-- A limit of 128 bits on the way to a result is not seen: both operands and the negation keep
  to it, and whatever exceeds it is an overflow in any case. -/
  wide : wide? a.val = some a.val ∧ wide? b.val = some b.val ∧ wide? (-a.val) = some (-a.val) ∧
    ∀ operation z, narrow operation kind z = exact operation kind z

/-- Arithmetic on two integers of one kind gives the exact number or is refused. -/
theorem integers_exact (kind : IntKind) (a b : kind.Number) : ExactOn kind a b where
  sum := (apply_int .add rfl a b).symm ▸ exact_exactly _ kind _
  difference := (apply_int .sub rfl a b).symm ▸ exact_exactly _ kind _
  product := (apply_int .mul rfl a b).symm ▸ exact_exactly _ kind _
  negation := exact_exactly _ kind _
  undivided op divides := divisionByZero_iff op divides a b
  divided divisor := ⟨_, _, tdiv_truncates a.val b.val divisor, div_exactly a b divisor,
    rem_exactly a b divisor⟩
  restored := divided_restored a b
  typed op v arithmetic made := by
    have delivers := intArithmetic_delivers op arithmetic kind a.val b.val
    rw [← apply_int op arithmetic] at delivers
    rcases delivers with ⟨w, same, inhabits⟩ | ⟨e, refused, -⟩
    · obtain rfl := Except.ok.inj (same.symm.trans made)
      exact inhabits.2
    · cases refused.symm.trans made
  wide := ⟨(held_wide (number_held a)).1, (held_wide (number_held b)).1,
    (held_wide (number_held a)).2, fun operation z => narrow_eq operation kind z⟩

/-- The least number has no positive counterpart, but a remainder. -/
example :
    let least : IntKind.int64.Number := ⟨-9223372036854775808, by decide, by decide⟩
    let minusOne : IntKind.int64.Number := ⟨-1, by decide, by decide⟩
    apply .div (.int .int64 least) (.int .int64 minusOne) = .error (.overflow "/" (.int .int64)) ∧
      apply .rem (.int .int64 least) (.int .int64 minusOne) =
        .ok (.int .int64 ⟨0, by decide, by decide⟩) :=
  ⟨rfl, rfl⟩

end Operator

end SimBus
