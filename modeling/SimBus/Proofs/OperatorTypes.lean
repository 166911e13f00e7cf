import SimBus.Typing
import SimBus.Proofs.DoubleOrder
import SimBus.Proofs.EvalRules
import SimBus.Proofs.WellFormedValues
/-!
Operators on values of the types that they support. Their results have the
type that is promised, and the only error besides the expected ones comes from
ordering a NaN.
-/

namespace SimBus.Operator

open EvalError (Expected)

def isOrdering : BinaryOp → Bool
  | .lt | .le | .gt | .ge => true
  | _ => false

/-- The error of an ordering operator that one of the two doubles is a NaN to. -/
def OrdersNaN (op : BinaryOp) (left right : Value) (e : EvalError) : Prop :=
  isOrdering op = true ∧ ∃ x y, left = .double x ∧ right = .double y ∧
    (x.isNaN = true ∨ y.isNaN = true) ∧ e = .invalidOperands op.symbol .double .double

theorem not_ok (v : Value) (typed : v.ty = .bool) : ∃ flag, not v = .ok (.bool flag) := by
  obtain ⟨flag, rfl⟩ := Value.bool_of_ty v typed
  exact ⟨!flag, rfl⟩

theorem flag_ok (op : BinaryOp) (v : Value) (typed : v.ty = .bool) :
    ∃ b, flag op v = .ok b := by
  obtain ⟨b, rfl⟩ := Value.bool_of_ty v typed
  exact ⟨b, rfl⟩

theorem exact_cases (operation : String) (kind : IntKind) (z : Int) :
    (∃ number, exact operation kind z = .ok (.int kind number)) ∨
      exact operation kind z = .error (.overflow operation (.int kind)) := by
  unfold exact
  split
  · next number _ => exact .inl ⟨number, rfl⟩
  · exact .inr rfl

/-- A result that is of the given type or one of the expected errors. -/
def Delivers (ty : Ty) (result : Except EvalError Value) : Prop :=
  (∃ v, result = .ok v ∧ v.Inhabits ty) ∨ ∃ e, result = .error e ∧ e.Expected

theorem exact_delivers (operation : String) (kind : IntKind) (z : Int) :
    Delivers (.int kind) (exact operation kind z) := by
  rcases exact_cases operation kind z with ⟨number, made⟩ | overflow
  · exact .inl ⟨_, made, Value.inhabits_int kind number⟩
  · exact .inr ⟨_, overflow, .overflow operation (.int kind)⟩

theorem numeric_cases (ty : Ty) (numeric : ty.isNumeric = true) :
    ty = .double ∨ ∃ kind, ty = .int kind := by
  cases ty with
  | double => exact .inl rfl
  | int kind => exact .inr ⟨kind, rfl⟩
  | _ => cases numeric

theorem negate_delivers (ty : Ty) (numeric : ty.isNumeric = true) (v : Value)
    (typed : v.ty = ty) : Delivers ty (negate v) := by
  rcases numeric_cases ty numeric with rfl | ⟨kind, rfl⟩
  · obtain ⟨x, rfl⟩ := Value.double_of_ty v typed
    exact .inl ⟨_, rfl, Value.inhabits_double _⟩
  · obtain ⟨number, rfl⟩ := Value.int_of_ty v kind typed
    exact exact_delivers "-" kind _

def isArithmetic : BinaryOp → Bool
  | .mul | .div | .rem | .add | .sub => true
  | _ => false

theorem intArithmetic_delivers (op : BinaryOp) (arithmetic : isArithmetic op = true)
    (kind : IntKind) (a b : Int) : Delivers (.int kind) (intArithmetic op kind a b) := by
  cases op <;> simp only [isArithmetic, Bool.false_eq_true] at arithmetic
  case add | sub | mul => exact exact_delivers _ kind _
  case div | rem =>
    by_cases zero : b = 0
    · exact .inr ⟨_, by simp only [intArithmetic, zero, ↓reduceIte], .divisionByZero⟩
    · simp only [intArithmetic, zero, ↓reduceIte]
      exact exact_delivers _ kind _

theorem doubleArithmetic_delivers (op : BinaryOp) (arithmetic : isArithmetic op = true)
    (x y : Float) : Delivers .double (doubleArithmetic op x y) := by
  cases op <;> simp only [isArithmetic, Bool.false_eq_true] at arithmetic
  case add | sub | mul => exact .inl ⟨_, rfl, Value.inhabits_double _⟩
  case div | rem =>
    by_cases zero : (y == 0.0) = true
    · exact .inr ⟨_, by simp only [doubleArithmetic, zero, ↓reduceIte], .divisionByZero⟩
    · simp only [doubleArithmetic, zero]
      exact .inl ⟨_, rfl, Value.inhabits_double _⟩

theorem arithmetic_delivers (op : BinaryOp) (isArith : isArithmetic op = true) (ty : Ty)
    (supported : Typing.supports op ty = true) (left right : Value) (leftTyped : left.ty = ty)
    (rightTyped : right.ty = ty) : Delivers ty (arithmetic op left right) := by
  have kinds : ty.isNumeric = true ∨ (op = .add ∧ ty = .string) := by
    cases op <;> simp_all [Typing.supports, isArithmetic]
  rcases kinds with numeric | ⟨rfl, rfl⟩
  · rcases numeric_cases ty numeric with rfl | ⟨kind, rfl⟩
    · obtain ⟨x, rfl⟩ := Value.double_of_ty left leftTyped
      obtain ⟨y, rfl⟩ := Value.double_of_ty right rightTyped
      exact doubleArithmetic_delivers op isArith x y
    · obtain ⟨a, rfl⟩ := Value.int_of_ty left kind leftTyped
      obtain ⟨b, rfl⟩ := Value.int_of_ty right kind rightTyped
      simpa [arithmetic] using intArithmetic_delivers op isArith kind a.val b.val
  · obtain ⟨a, rfl⟩ := Value.string_of_ty left leftTyped
    obtain ⟨b, rfl⟩ := Value.string_of_ty right rightTyped
    exact .inl ⟨_, rfl, Value.inhabits_string _⟩

theorem order_cases (op : BinaryOp) (ordering : isOrdering op = true) (ty : Ty)
    (supported : Typing.supports op ty = true) (left right : Value) (leftTyped : left.ty = ty)
    (rightTyped : right.ty = ty) :
    (∃ o, order? left right = some o) ∨
      ∃ x y, left = .double x ∧ right = .double y ∧ orderDoubles x y = none := by
  have kinds : ty.isNumeric = true ∨ ty = .string ∨ ty = .objectPath ∨ ty = .bool := by
    cases op <;> simp_all [Typing.supports, isOrdering, or_assoc]
  rcases kinds with numeric | rfl | rfl | rfl
  · rcases numeric_cases ty numeric with rfl | ⟨kind, rfl⟩
    · obtain ⟨x, rfl⟩ := Value.double_of_ty left leftTyped
      obtain ⟨y, rfl⟩ := Value.double_of_ty right rightTyped
      cases ordered : orderDoubles x y with
      | none => exact .inr ⟨x, y, rfl, rfl, ordered⟩
      | some o => exact .inl ⟨o, ordered⟩
    · obtain ⟨a, rfl⟩ := Value.int_of_ty left kind leftTyped
      obtain ⟨b, rfl⟩ := Value.int_of_ty right kind rightTyped
      exact .inl ⟨_, rfl⟩
  · obtain ⟨a, rfl⟩ := Value.string_of_ty left leftTyped
    obtain ⟨b, rfl⟩ := Value.string_of_ty right rightTyped
    exact .inl ⟨_, rfl⟩
  · obtain ⟨a, rfl⟩ := Value.objectPath_of_ty left leftTyped
    obtain ⟨b, rfl⟩ := Value.objectPath_of_ty right rightTyped
    exact .inl ⟨_, rfl⟩
  · obtain ⟨a, rfl⟩ := Value.bool_of_ty left leftTyped
    obtain ⟨b, rfl⟩ := Value.bool_of_ty right rightTyped
    exact .inl ⟨_, rfl⟩

theorem compareValues_cases (op : BinaryOp) (ordering : isOrdering op = true) (ty : Ty)
    (supported : Typing.supports op ty = true) (left right : Value) (leftTyped : left.ty = ty)
    (rightTyped : right.ty = ty) :
    Delivers .bool (compareValues op left right) ∨
      ∃ e, compareValues op left right = .error e ∧ OrdersNaN op left right e := by
  have same : left.ty = right.ty := leftTyped.trans rightTyped.symm
  rcases order_cases op ordering ty supported left right leftTyped rightTyped with
    ⟨o, ordered⟩ | ⟨x, y, rfl, rfl, unordered⟩
  · left
    exact .inl ⟨_, by simp [compareValues, same, ordered], Value.inhabits_bool (fits op o)⟩
  · right
    have refused : compareValues op (.double x) (.double y) =
        .error (.invalidOperands op.symbol .double .double) := by
      simp [compareValues, order?, unordered, invalid, Value.ty]
    exact ⟨_, refused, ordering, x, y, rfl, rfl, (orderDoubles_none_iff x y).mp unordered, rfl⟩

def resultType (op : BinaryOp) (ty : Ty) : Ty := if op.isComparison then .bool else ty

theorem apply_cases (op : BinaryOp) (strict : op ≠ .and ∧ op ≠ .or) (ty : Ty)
    (supported : Typing.supports op ty = true) (left right : Value) (leftTyped : left.ty = ty)
    (rightTyped : right.ty = ty) :
    Delivers (resultType op ty) (apply op left right) ∨
      ∃ e, apply op left right = .error e ∧ OrdersNaN op left right e := by
  cases op
  case and => exact absurd rfl strict.1
  case or => exact absurd rfl strict.2
  case eq | ne => exact .inl (.inl ⟨_, rfl, Value.inhabits_bool _⟩)
  case lt | le | gt | ge =>
    exact compareValues_cases _ rfl ty supported left right leftTyped rightTyped
  case mul | div | rem | add | sub =>
    exact .inl (arithmetic_delivers _ rfl ty supported left right leftTyped rightTyped)

end SimBus.Operator
