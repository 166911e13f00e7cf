import SimBus.ParseError
import SimBus.Builtin
/-!
Types of expressions. Types flow in both directions: the type that is wanted
goes down as a hint, from which bare numbers and empty containers take theirs,
and the type that was found comes back with the typed expression.
-/

namespace SimBus

/-- The variables that an expression may read. Initializers may read none. -/
structure Scope where
  data : Option (List (String × Ty))
  locals : List (String × Ty)

namespace Typing

abbrev Result (α : Type) := Except ParseError α

abbrev Typed := Expr × Ty

def fail {α : Type} (position : Position) (error : SemanticError) : Result α :=
  .error (.semantic position error)

def defaultType? (value : Int) : Option Ty :=
  ([.int32, .int64, .uint64].find? fun kind => (IntKind.number? kind value).isSome).map Ty.int

/-- A number takes the hinted type if that is numeric, or else a default. -/
def integer (position : Position) (value : Int) (hint : Option Ty) : Result Typed :=
  let wanted := match hint with
    | some ty => if ty.isNumeric then some ty else defaultType? value
    | none => defaultType? value
  match wanted with
  | none => fail position (.literalOutOfRange value (.int .uint64))
  | some ty =>
      match Value.ofInt ty value with
      | .ok literal => .ok (.literal literal, ty)
      | .error _ => fail position (.literalOutOfRange value ty)

/-- A string is an object path where one is wanted. -/
def string (position : Position) (text : String) (hint : Option Ty) : Result Typed :=
  if hint = some .objectPath then
    if ObjectPath.valid text then .ok (.literal (.objectPath text), .objectPath)
    else fail position (.invalidObjectPath text)
  else .ok (.literal (.string text), .string)

/-- Local names hide data variables. -/
def variableType (scope : Scope) (position : Position) (name : String) : Result Typed :=
  match scope.locals.find? (·.1 == name) with
  | some entry => .ok (.var name entry.2, entry.2)
  | none =>
      match scope.data with
      | none => fail position (.initializerVariable name)
      | some data =>
          match data.find? (·.1 == name) with
          | some entry => .ok (.var name entry.2, entry.2)
          | none => fail position (.undeclaredVariable name)

def expect (position : Position) (context : String) (ty : Ty) (found : Result Typed) :
    Result Expr := do
  let (expr, foundTy) ← found
  if foundTy = ty then pure expr
  else fail position (.typeMismatch context ty foundTy)

/-- Whether an expression leaves its type open, as far as its form tells. -/
def isOpen : Surface.Expr → Bool
  | .integer _ _ | .double _ _ => true
  | .array _ items => items.isEmpty
  | .dict _ entries => entries.isEmpty
  | .negate _ operand => isOpen operand
  | _ => false

def supports (op : BinaryOp) (ty : Ty) : Bool :=
  match op with
  | .eq | .ne => true
  | .lt | .le | .gt | .ge => ty.isNumeric || ty == .string || ty == .objectPath || ty == .bool
  | .add => ty.isNumeric || ty == .string
  | _ => ty.isNumeric

def operation (position : Position) (op : BinaryOp) (left right : Expr) (ty : Ty) :
    Result Typed :=
  if supports op ty then .ok (.binary op left right, if op.isComparison then .bool else ty)
  else fail position (.operandType op ty)

/-- The hint for the operands of an operator: what comparisons compare has
nothing to do with their result. -/
def operandHint (op : BinaryOp) (hint : Option Ty) : Option Ty :=
  if op.isComparison then none else hint

def arrayHint : Option Ty → Option Ty
  | some (.array element) => some element
  | _ => none

def dictHint : Option Ty → Option Ty × Option Ty
  | some (.dict key value) => (some key, some value)
  | _ => (none, none)

def tupleHints (count : Nat) : Option Ty → List Ty
  | some (.tuple members) => if members.length = count then members else []
  | _ => []

/-- What stands behind `@o`: a string is checked at once, and any other
expression when it is evaluated. -/
def pathHint : Surface.Expr → Ty
  | .string _ _ => .objectPath
  | _ => .string

def toPath (position : Position) : Typed → Result Typed
  | (inner, .objectPath) => .ok (inner, .objectPath)
  | (inner, .string) => .ok (.objectPath inner, .objectPath)
  | (_, found) => fail position (.typeMismatch "object path annotation" .string found)

def negated (position : Position) : Typed → Result Typed
  | (inner, ty) => if ty.isNumeric then .ok (.negate inner, ty) else fail position (.negatedType ty)

def arrayOf (position : Position) (items : List Expr) : Option Ty → Result Typed
  | some element => .ok (.array element items, .array element)
  | none => fail position .untypedArray

def dictOf (position : Position) (entries : List (Expr × Expr)) :
    Option Ty → Option Ty → Result Typed
  | some key, some value =>
      if key.isBasic then .ok (.dict key value entries, .dict key value)
      else fail position (.keyNotBasic key)
  | _, _ => fail position .untypedDict

def callOf (position : Position) (b : Builtin) (function : String) : Typed → Result Typed
  | (argument, ty) =>
      match b.resultType ty with
      | .ok result => .ok (.call function argument, result)
      | .error e => fail position (.functionType e)

/-- An item of a container, which has the type of the items before it, or fixes
the type if there are none. -/
def slot (position : Position) (context : String) (ty : Option Ty) (found : Result Typed) :
    Result (Expr × Option Ty) :=
  match ty with
  | some ty => do
      let expr ← expect position context ty found
      pure (expr, some ty)
  | none => do
      let (expr, ty) ← found
      pure (expr, some ty)

mutual
/-- The typed form of an expression and its type. -/
def infer (table : BuiltinTable) (scope : Scope) : (hint : Option Ty) → Surface.Expr → Result Typed
  | _, .bool _ flag => .ok (.literal (.bool flag), .bool)
  | hint, .integer pos n => integer pos n hint
  | _, .double _ x => .ok (.literal (.double x), .double)
  | hint, .string pos text => string pos text hint
  | _, .var pos name => variableType scope pos name
  | _, .call pos function arguments =>
      match table.find? function with
      | none => fail pos (.unknownFunction function)
      | some b => do
          let argument ← match arguments with
            | [argument] => infer table scope (b.hint [] 0) argument
            | arguments => do
                let (items, types) ← inferArguments table scope b [] arguments
                pure (.tuple items, .tuple types)
          callOf pos b function argument
  | hint, .tuple _ items => do
      let (items, types) ← inferTuple table scope (tupleHints items.length hint) items
      pure (.tuple items, .tuple types)
  | hint, .array pos items => do
      let (items, element) ← inferItems table scope (arrayHint hint) items
      arrayOf pos items element
  | hint, .dict pos entries => do
      let (key, value) := dictHint hint
      let (entries, key, value) ← inferEntries table scope key value entries
      dictOf pos entries key value
  | _, .variant _ inner => do
      let (inner, _) ← infer table scope none inner
      pure (.variant inner, .variant)
  | _, .annotated _ ty inner =>
      if ty = .objectPath then do
        let found ← infer table scope (some (pathHint inner)) inner
        toPath inner.position found
      else do
        let inner ← expect inner.position "annotation" ty (infer table scope (some ty) inner)
        pure (inner, ty)
  | _, .choice pos [] => fail pos .emptyChoice
  | hint, .choice _ (first :: others) => do
      let (first, ty) ← infer table scope hint first
      let others ← inferAlternatives table scope ty others
      pure (.choice (first :: others), ty)
  | _, .not _ operand => do
      let operand ← expect operand.position "operand of '!'" .bool
        (infer table scope (some .bool) operand)
      pure (.not operand, .bool)
  | hint, .negate pos (.integer _ n) => integer pos (-n) hint
  | _, .negate _ (.double _ x) => .ok (.literal (.double (-x)), .double)
  | hint, .negate pos operand => do
      let operand ← infer table scope hint operand
      negated pos operand
  | hint, .binary pos op lhs rhs =>
      if op = .and ∨ op = .or then do
        let context := "operand of '" ++ op.symbol ++ "'"
        let left ← expect lhs.position context .bool (infer table scope (some .bool) lhs)
        let right ← expect rhs.position context .bool (infer table scope (some .bool) rhs)
        pure (.binary op left right, .bool)
      else
        let context := "operands of '" ++ op.symbol ++ "'"
        if isOpen lhs && !isOpen rhs then do
          let (right, ty) ← infer table scope (operandHint op hint) rhs
          let left ← expect lhs.position context ty (infer table scope (some ty) lhs)
          operation pos op left right ty
        else do
          let (left, ty) ← infer table scope (operandHint op hint) lhs
          let right ← expect rhs.position context ty (infer table scope (some ty) rhs)
          operation pos op left right ty

/-- Several arguments of a call; `previous` are the types of those before. -/
def inferArguments (table : BuiltinTable) (scope : Scope) (b : Builtin) :
    (previous : List Ty) → List Surface.Expr → Result (List Expr × List Ty)
  | previous, [] => .ok ([], previous)
  | previous, argument :: rest => do
      let (item, ty) ← infer table scope (b.hint previous previous.length) argument
      let (items, types) ← inferArguments table scope b (previous ++ [ty]) rest
      pure (item :: items, types)

def inferTuple (table : BuiltinTable) (scope : Scope) :
    (hints : List Ty) → List Surface.Expr → Result (List Expr × List Ty)
  | _, [] => .ok ([], [])
  | hints, item :: rest => do
      let (item, ty) ← infer table scope hints.head? item
      let (items, types) ← inferTuple table scope hints.tail rest
      pure (item :: items, ty :: types)

def inferItems (table : BuiltinTable) (scope : Scope) :
    (element : Option Ty) → List Surface.Expr → Result (List Expr × Option Ty)
  | element, [] => .ok ([], element)
  | element, item :: rest => do
      let (item, element) ← slot item.position "array element" element
        (infer table scope element item)
      let (items, element) ← inferItems table scope element rest
      pure (item :: items, element)

def inferEntries (table : BuiltinTable) (scope : Scope) :
    (key value : Option Ty) → List (Surface.Expr × Surface.Expr) →
      Result (List (Expr × Expr) × Option Ty × Option Ty)
  | key, value, [] => .ok ([], key, value)
  | key, value, (k, v) :: rest => do
      let (k, key) ← slot k.position "dictionary key" key (infer table scope key k)
      let (v, value) ← slot v.position "dictionary value" value (infer table scope value v)
      let (entries, key, value) ← inferEntries table scope key value rest
      pure ((k, v) :: entries, key, value)

def inferAlternatives (table : BuiltinTable) (scope : Scope) (ty : Ty) :
    List Surface.Expr → Result (List Expr)
  | [] => .ok []
  | alternative :: rest => do
      let expr ← expect alternative.position "choice alternative" ty
        (infer table scope (some ty) alternative)
      let exprs ← inferAlternatives table scope ty rest
      pure (expr :: exprs)
end

def check (table : BuiltinTable) (scope : Scope) (context : String) (ty : Ty)
    (expr : Surface.Expr) : Result Expr :=
  expect expr.position context ty (infer table scope (some ty) expr)

end Typing

end SimBus
