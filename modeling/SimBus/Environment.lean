import SimBus.EvalError
/-!
The data of one object: its variables in the order of their first declaration,
each with its type, its current value and the value a reset gives it back.
Values of another type than the declared one are refused.
-/

namespace SimBus

structure Binding where
  name : String
  ty : Ty
  value : Value
  initial : Value

abbrev Environment := List Binding

namespace Environment

def empty : Environment := []

def check (name : String) (ty : Ty) (value : Value) : Except EvalError Unit :=
  if value.ty = ty then .ok () else .error (.typeMismatch name ty value.ty)

/-- Puts a binding in the place of the one of its name, or else at the end. -/
def put (binding : Binding) : Environment → Environment
  | [] => [binding]
  | other :: rest =>
      if other.name = binding.name then binding :: rest else other :: put binding rest

/-- Adds a variable; one declared earlier under the name is replaced. -/
def declare (env : Environment) (name : String) (ty : Ty) (value : Value) :
    Except EvalError Environment := do
  check name ty value
  pure (env.put ⟨name, ty, value, value⟩)

def binding? (env : Environment) (name : String) : Option Binding :=
  env.find? (·.name == name)

def lookup (env : Environment) (name : String) : Except EvalError Value :=
  match env.binding? name with
  | some binding => .ok binding.value
  | none => .error (.unboundVariable name)

def declaredType? (env : Environment) (name : String) : Option Ty :=
  (env.binding? name).map Binding.ty

def assign (env : Environment) (name : String) (value : Value) : Except EvalError Environment :=
  match env.binding? name with
  | none => .error (.unboundVariable name)
  | some binding => do
      check name binding.ty value
      pure (env.put { binding with value := value })

def reset (env : Environment) : Environment :=
  env.map fun binding => { binding with value := binding.initial }

def snapshot (env : Environment) : List Value := env.map Binding.value

/-- Puts values back, the first to the first variable and so on. Variables
declared since then keep theirs. -/
def restore : Environment → (values : List Value) → Environment
  | binding :: rest, value :: values => { binding with value := value } :: restore rest values
  | env, _ => env

def entries (env : Environment) : List (String × Value) :=
  env.map fun binding => (binding.name, binding.value)

end Environment

end SimBus
