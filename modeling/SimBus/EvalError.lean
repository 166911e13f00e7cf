import SimBus.Value.Text
/-!
What can go wrong while an expression is evaluated.
-/

namespace SimBus

/-- A built-in function was given an argument of a type that it does not take. -/
structure FunctionTypeError where
  function : String
  expected : String
  found : Ty

def FunctionTypeError.message (e : FunctionTypeError) : String :=
  "function '" ++ e.function ++ "' expects an argument of type " ++ e.expected ++
    ", found '" ++ e.found.signature ++ "'"

inductive EvalError where
  | unboundVariable (name : String)
  | typeMismatch (name : String) (expected found : Ty)
  | functionType (error : FunctionTypeError)
  | unknownFunction (name : String)
  | arity (context : String) (expected found : Nat)
  | divisionByZero
  | overflow (operation : String) (ty : Ty)
  | invalidOperands (operation : String) (left right : Ty)
  | indexOutOfRange (index : Int) (length : Nat)
  | missingKey (key : Value)
  | invalidObjectPath (path : String)
  | emptyChoice
  | value (error : ValueError)

namespace EvalError

/-- A negative index is reported as the greatest index there is. -/
def indexText (index : Int) : String :=
  toString (if index < 0 then IntKind.uint64.hi else index)

def message : EvalError → String
  | unboundVariable name => "unbound variable '" ++ name ++ "'"
  | typeMismatch name expected found =>
      "variable '" ++ name ++ "' has type '" ++ expected.signature ++
        "', cannot hold a value of type '" ++ found.signature ++ "'"
  | functionType error => error.message
  | unknownFunction name => "unknown function '" ++ name ++ "'"
  | arity context expected found =>
      "arity mismatch in " ++ context ++ ": expected " ++ toString expected ++
        ", found " ++ toString found
  | divisionByZero => "division by zero"
  | overflow operation ty =>
      "arithmetic overflow in '" ++ operation ++ "' on type '" ++ ty.signature ++ "'"
  | invalidOperands operation left right =>
      "operator '" ++ operation ++ "' cannot be applied to '" ++ left.signature ++
        "' and '" ++ right.signature ++ "'"
  | indexOutOfRange index length =>
      "index " ++ indexText index ++ " is out of range for an array of length " ++ toString length
  | missingKey key => "key " ++ key.text ++ " is not in the dictionary"
  | invalidObjectPath path => "'" ++ path ++ "' is not a valid object path"
  | emptyChoice => "nondeterministic choice has no alternatives"
  | value error => error.message

end EvalError

end SimBus
