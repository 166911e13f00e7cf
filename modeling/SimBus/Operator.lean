import SimBus.Expr
import SimBus.EvalError
import SimBus.Double
/-!
The operators on values. Integer arithmetic is exact or refused; doubles follow
the rules of floating point, except that no double is divided by zero.
-/

namespace SimBus.Operator

def invalid {α : Type} (operation : String) (left right : Ty) : Except EvalError α :=
  .error (.invalidOperands operation left right)

def not : Value → Except EvalError Value
  | .bool flag => .ok (.bool (!flag))
  | other => invalid "!" other.ty .bool

/-- An integer of the kind, unless the number lies outside its range. -/
def exact (operation : String) (kind : IntKind) (z : Int) : Except EvalError Value :=
  match kind.number? z with
  | some number => .ok (.int kind number)
  | none => .error (.overflow operation (.int kind))

def negate : Value → Except EvalError Value
  | .double x => .ok (.double (-x))
  | .int kind number => exact "-" kind (-number.val)
  | other => invalid "-" other.ty other.ty

def flag (op : BinaryOp) : Value → Except EvalError Bool
  | .bool flag => .ok flag
  | other => invalid op.symbol other.ty .bool

/-- The order of two doubles; a NaN has none. -/
def orderDoubles (x y : Float) : Option Ordering :=
  if x < y then some .lt else if x == y then some .eq else if y < x then some .gt else none

def orderTexts (a b : String) : Ordering :=
  if a < b then .lt else if a = b then .eq else .gt

def order? : Value → Value → Option Ordering
  | .double x, .double y => orderDoubles x y
  | .string a, .string b | .objectPath a, .objectPath b => some (orderTexts a b)
  | .bool a, .bool b => some (compare a.toNat b.toNat)
  | .int _ a, .int _ b => some (compare a.val b.val)
  | _, _ => none

def fits : BinaryOp → Ordering → Bool
  | .lt, o => o == .lt
  | .le, o => o != .gt
  | .gt, o => o == .gt
  | _, o => o != .lt

def compareValues (op : BinaryOp) (left right : Value) : Except EvalError Value :=
  if left.ty ≠ right.ty then invalid op.symbol left.ty right.ty
  else match order? left right with
    | some o => .ok (.bool (fits op o))
    | none => invalid op.symbol left.ty right.ty

def doubleArithmetic (op : BinaryOp) (x y : Float) : Except EvalError Value :=
  match op with
  | .add => .ok (.double (x + y))
  | .sub => .ok (.double (x - y))
  | .mul => .ok (.double (x * y))
  | .div => if y == 0.0 then .error .divisionByZero else .ok (.double (x / y))
  | .rem => if y == 0.0 then .error .divisionByZero else .ok (.double (Double.remainder x y))
  | _ => invalid op.symbol .double .double

/-- Integer arithmetic without wrapping. Quotients are cut off toward zero, and
a remainder has the sign of the dividend. -/
def intArithmetic (op : BinaryOp) (kind : IntKind) (a b : Int) : Except EvalError Value :=
  match op with
  | .add => exact op.symbol kind (a + b)
  | .sub => exact op.symbol kind (a - b)
  | .mul => exact op.symbol kind (a * b)
  | .div => if b = 0 then .error .divisionByZero else exact op.symbol kind (a.tdiv b)
  | .rem => if b = 0 then .error .divisionByZero else exact op.symbol kind (a.tmod b)
  | _ => invalid op.symbol (.int kind) (.int kind)

/-- Arithmetic on two numbers of one type; strings can be added. -/
def arithmetic (op : BinaryOp) (left right : Value) : Except EvalError Value :=
  match left, right with
  | .string a, .string b =>
      if op = .add then .ok (.string (a ++ b)) else invalid op.symbol .string .string
  | .double x, .double y => doubleArithmetic op x y
  | .int j a, .int k b =>
      if j = k then intArithmetic op j a.val b.val else invalid op.symbol (.int j) (.int k)
  | left, right => invalid op.symbol left.ty right.ty

def apply (op : BinaryOp) (left right : Value) : Except EvalError Value :=
  match op with
  | .eq => .ok (.bool (left == right))
  | .ne => .ok (.bool (!(left == right)))
  | .lt | .le | .gt | .ge => compareValues op left right
  | _ => arithmetic op left right

end SimBus.Operator
