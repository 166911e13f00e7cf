import SimBus.Definition
/-!
Programs as written: names are not resolved and expressions have no types yet.
Every expression keeps the place where it begins, a binary operation that of
its left operand.
-/

namespace SimBus.Surface

inductive Expr where
  | bool (pos : Position) (flag : Bool)
  | integer (pos : Position) (n : Nat)
  | double (pos : Position) (x : Float)
  | string (pos : Position) (text : String)
  | var (pos : Position) (name : String)
  | call (pos : Position) (function : String) (arguments : List Expr)
  | tuple (pos : Position) (items : List Expr)
  | array (pos : Position) (items : List Expr)
  | dict (pos : Position) (entries : List (Expr × Expr))
  | variant (pos : Position) (inner : Expr)
  | annotated (pos : Position) (ty : Ty) (inner : Expr)
  | choice (pos : Position) (alternatives : List Expr)
  | not (pos : Position) (operand : Expr)
  | negate (pos : Position) (operand : Expr)
  | binary (pos : Position) (op : BinaryOp) (lhs rhs : Expr)
  deriving Inhabited

def Expr.position : Expr → Position
  | .bool pos _ | .integer pos _ | .double pos _ | .string pos _ | .var pos _
  | .call pos _ _ | .tuple pos _ | .array pos _ | .dict pos _ | .variant pos _
  | .annotated pos _ _ | .choice pos _ | .not pos _ | .negate pos _ | .binary pos _ _ _ => pos

structure Name where
  text : String
  position : Position
  deriving DecidableEq

inductive Statement where
  | assign (pos : Position) (name : String) (value : Expr)
  | reply (pos : Position) (arguments : List Expr)
  | emit (pos : Position) (signal : String) (arguments : List Expr)
  | throw (pos : Position) (error : String) (message : Option Expr)

/-- Whether the statement answers the call, be it with an error. -/
def Statement.answers : Statement → Bool
  | .reply .. | .throw .. => true
  | .assign .. | .emit .. => false

structure Precondition where
  error : Option String
  condition : Expr

inductive Trigger where
  | method (name : String)
  | property (name : String)
  | arbitrary
  deriving DecidableEq

structure Transition where
  source : Name
  target : Name
  trigger : Trigger
  triggerPosition : Position
  preconditions : List Precondition
  body : List Statement
  position : Position

structure DataVariable where
  name : String
  ty : Ty
  initializer : Expr
  position : Position

structure Object where
  path : String
  names : List String
  interfaces : List Name
  data : List DataVariable
  states : List Name
  transitions : List Transition
  position : Position

end SimBus.Surface
