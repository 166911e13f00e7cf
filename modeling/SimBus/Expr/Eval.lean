import SimBus.Expr
import SimBus.Builtin
import SimBus.Environment
import SimBus.Operator
/-!
Evaluation of expressions. It reads variables and never changes them. A choice
draws one of its alternatives and evaluates only that one.
-/

namespace SimBus

/-- What an expression can refer to. Local names hide data variables. -/
structure EvalContext where
  builtins : BuiltinTable
  env : Environment
  locals : List (String × Value)

namespace EvalContext

def lookup (ctx : EvalContext) (name : String) : Except EvalError Value :=
  match ctx.locals.find? (·.1 == name) with
  | some entry => .ok entry.2
  | none => ctx.env.lookup name

def read (ctx : EvalContext) (name : String) (ty : Ty) : Except EvalError Value := do
  let value ← ctx.lookup name
  if value.ty = ty then pure value else .error (.typeMismatch name ty value.ty)

def call (ctx : EvalContext) (function : String) (argument : Value) : Eval Value :=
  match ctx.builtins.find? function with
  | some b => b.call argument
  | none => throw (.unknownFunction function)

end EvalContext

namespace Eval

def ofExcept {α : Type} : Except EvalError α → Eval α
  | .ok result => pure result
  | .error e => throw e

end Eval

namespace Expr

def toObjectPath : Value → Except EvalError Value
  | .string path | .objectPath path =>
      if ObjectPath.valid path then .ok (.objectPath path) else .error (.invalidObjectPath path)
  | other => .error (.typeMismatch "object path" .string other.ty)

mutual
def eval (ctx : EvalContext) : Expr → Eval Value
  | literal value => pure value
  | var name ty => Eval.ofExcept (ctx.read name ty)
  | call function argument => do
      let argument ← eval ctx argument
      ctx.call function argument
  | tuple items => do
      let values ← evalList ctx items
      pure (.tuple values)
  | array element items => do
      let values ← evalList ctx items
      Eval.ofValue (Value.mkArray element values)
  | dict key value entries => do
      let pairs ← evalEntries ctx entries
      Eval.ofValue (Value.mkDict key value pairs)
  | variant inner => do
      let value ← eval ctx inner
      pure (.variant value)
  | objectPath inner => do
      let value ← eval ctx inner
      Eval.ofExcept (toObjectPath value)
  | not operand => do
      let value ← eval ctx operand
      Eval.ofExcept (Operator.not value)
  | negate operand => do
      let value ← eval ctx operand
      Eval.ofExcept (Operator.negate value)
  | binary .and lhs rhs => do
      let left ← eval ctx lhs
      if ← Eval.ofExcept (Operator.flag .and left) then
        let right ← eval ctx rhs
        pure (.bool (← Eval.ofExcept (Operator.flag .and right)))
      else pure (.bool false)
  | binary .or lhs rhs => do
      let left ← eval ctx lhs
      if ← Eval.ofExcept (Operator.flag .or left) then pure (.bool true)
      else
        let right ← eval ctx rhs
        pure (.bool (← Eval.ofExcept (Operator.flag .or right)))
  | binary op lhs rhs => do
      let left ← eval ctx lhs
      let right ← eval ctx rhs
      Eval.ofExcept (Operator.apply op left right)
  | choice [] => throw .emptyChoice
  | choice (first :: others) => do
      let i ← (Draws.randomIndex .bits64 others.length : Draws (Fin (others.length + 1)))
      if i.val = 0 then eval ctx first else evalNth ctx others (i.val - 1)

def evalList (ctx : EvalContext) : List Expr → Eval (List Value)
  | [] => pure []
  | item :: rest => do
      let value ← eval ctx item
      let values ← evalList ctx rest
      pure (value :: values)

def evalEntries (ctx : EvalContext) : List (Expr × Expr) → Eval (List (Value × Value))
  | [] => pure []
  | (key, value) :: rest => do
      let key ← eval ctx key
      let value ← eval ctx value
      let pairs ← evalEntries ctx rest
      pure ((key, value) :: pairs)

/-- Evaluates only the expression at a position of the list. -/
def evalNth (ctx : EvalContext) : List Expr → Nat → Eval Value
  | [], _ => throw .emptyChoice
  | item :: _, 0 => eval ctx item
  | _ :: rest, n + 1 => evalNth ctx rest n
end

end Expr

end SimBus
