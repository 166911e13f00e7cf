import SimBus.Value
/-!
Typed expressions. Every node knows what evaluation needs of its type:
variables their type, containers the types of their members.
-/

namespace SimBus

inductive BinaryOp where
  | mul | div | rem | add | sub
  | lt | le | gt | ge | eq | ne
  | and | or
  deriving DecidableEq, Repr

namespace BinaryOp

def symbol : BinaryOp → String
  | mul => "*"
  | div => "/"
  | rem => "%"
  | add => "+"
  | sub => "-"
  | lt => "<"
  | le => "<="
  | gt => ">"
  | ge => ">="
  | eq => "=="
  | ne => "!="
  | and => "&&"
  | or => "||"

/-- Comparisons have a boolean result, whatever they compare. -/
def isComparison : BinaryOp → Bool
  | lt | le | gt | ge | eq | ne => true
  | mul | div | rem | add | sub | and | or => false

end BinaryOp

inductive Expr where
  | literal (value : Value)
  | var (name : String) (ty : Ty)
  /-- A call of a built-in function; several arguments make one tuple. -/
  | call (function : String) (argument : Expr)
  | tuple (items : List Expr)
  | array (element : Ty) (items : List Expr)
  | dict (key value : Ty) (entries : List (Expr × Expr))
  | variant (inner : Expr)
  /-- A string made into an object path when it is evaluated. -/
  | objectPath (inner : Expr)
  | not (operand : Expr)
  | negate (operand : Expr)
  | binary (op : BinaryOp) (lhs rhs : Expr)
  | choice (alternatives : List Expr)

namespace Expr

mutual
/-- Whether two expressions are written alike. Literals are compared as
values, so a literal NaN differs from itself. -/
def beq : Expr → Expr → Bool
  | literal a, literal b => a == b
  | var a s, var b t => a == b && s == t
  | call f a, call g b => f == g && beq a b
  | tuple as, tuple bs => beqList as bs
  | array s as, array t bs => s == t && beqList as bs
  | dict k v es, dict l w fs => k == l && v == w && beqEntries es fs
  | variant a, variant b => beq a b
  | objectPath a, objectPath b => beq a b
  | not a, not b => beq a b
  | negate a, negate b => beq a b
  | binary o a b, binary p c d => o == p && beq a c && beq b d
  | choice as, choice bs => beqList as bs
  | _, _ => false

def beqList : List Expr → List Expr → Bool
  | [], [] => true
  | a :: as, b :: bs => beq a b && beqList as bs
  | _, _ => false

def beqEntries : List (Expr × Expr) → List (Expr × Expr) → Bool
  | [], [] => true
  | (k, v) :: es, (l, w) :: fs => beq k l && beq v w && beqEntries es fs
  | _, _ => false
end

instance : BEq Expr := ⟨beq⟩

mutual
def variableNames : Expr → List String
  | literal _ => []
  | var name _ => [name]
  | call _ argument => variableNames argument
  | tuple items | array _ items | choice items => variableNamesOfList items
  | dict _ _ entries => variableNamesOfEntries entries
  | variant inner | objectPath inner | not inner | negate inner => variableNames inner
  | binary _ lhs rhs => variableNames lhs ++ variableNames rhs

def variableNamesOfList : List Expr → List String
  | [] => []
  | item :: rest => variableNames item ++ variableNamesOfList rest

def variableNamesOfEntries : List (Expr × Expr) → List String
  | [] => []
  | (key, value) :: rest => variableNames key ++ variableNames value ++ variableNamesOfEntries rest
end

end Expr

end SimBus
