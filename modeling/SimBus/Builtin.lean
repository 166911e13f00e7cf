import SimBus.EvalError
import SimBus.Random.Draws
/-!
Built-in functions and tables of them. A function takes one value; a call with
several arguments passes a tuple. Its rule gives the type of the result for
each type of argument that it takes, and is consulted again on every call, so
that no procedure can return a value of another type.
-/

namespace SimBus

/-- Evaluation: may draw random numbers and may fail. -/
abbrev Eval := ExceptT EvalError Draws

namespace Eval

def ofValue {α : Type} : Except ValueError α → Eval α
  | .ok result => pure result
  | .error e => throw (.value e)

end Eval

structure Builtin where
  name : String
  parameter : String
  rule : Ty → Option Ty
  /-- The type that the next of several arguments should have, from the types of
  the ones before it. It lets a bare number take the type that is wanted. -/
  hint : (previous : List Ty) → (index : Nat) → Option Ty
  procedure : Value → Eval Value

namespace Builtin

def resultType (b : Builtin) (argument : Ty) : Except FunctionTypeError Ty :=
  match b.rule argument with
  | some ty => .ok ty
  | none => .error ⟨b.name, b.parameter, argument⟩

/-- Runs the procedure between two checks of the rule. -/
def call (b : Builtin) (argument : Value) : Eval Value :=
  match b.resultType argument.ty with
  | .error e => throw (.functionType e)
  | .ok expected => do
      let result ← b.procedure argument
      if result.ty = expected then pure result
      else throw (.typeMismatch (b.name ++ "()") expected result.ty)

end Builtin

structure BuiltinTable where
  functions : List Builtin

namespace BuiltinTable

def find? (table : BuiltinTable) (name : String) : Option Builtin :=
  table.functions.find? (·.name == name)

/-- Adds a function; one of the same name gives way. -/
def insert (table : BuiltinTable) (b : Builtin) : BuiltinTable :=
  ⟨b :: table.functions.filter (·.name != b.name)⟩

def names (table : BuiltinTable) : List String :=
  (table.functions.map Builtin.name).mergeSort (fun a b => !decide (b < a))

end BuiltinTable

end SimBus
