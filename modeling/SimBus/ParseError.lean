import SimBus.EvalError
import SimBus.Surface.Token
/-!
Why a program text is refused: it does not follow the grammar, or what it says
does not make sense.
-/

namespace SimBus

inductive MemberKind where
  | method | signal | property
  deriving DecidableEq, Repr

def MemberKind.text : MemberKind → String
  | method => "method"
  | signal => "signal"
  | property => "property"

inductive SemanticError where
  | noStates
  | unknownState (name : String)
  | duplicateState (name : String)
  | duplicateVariable (name : String)
  | duplicateTransition (line : Nat)
  | unknownInterface (name : String)
  | unknownMember (kind : MemberKind) (name : String)
  | ambiguousMember (kind : MemberKind) (name : String) (candidates : List String)
  | undeclaredVariable (name : String)
  | readOnlyVariable (name : String)
  | typeMismatch (context : String) (expected found : Ty)
  | initializerVariable (name : String)
  | untypedArray
  | untypedDict
  | keyNotBasic (ty : Ty)
  | emptyChoice
  | negatedType (ty : Ty)
  | operandType (op : BinaryOp) (ty : Ty)
  | unknownFunction (name : String)
  | functionType (error : FunctionTypeError)
  | literalOutOfRange (value : Int) (ty : Ty)
  | invalidObjectPath (path : String)
  | replyOutsideMethod
  | missingReply (method : String)

def SemanticError.message : SemanticError → String
  | noStates => "object must declare at least one state"
  | unknownState name => "unknown state '" ++ name ++ "'"
  | duplicateState name => "state '" ++ name ++ "' is declared more than once"
  | duplicateVariable name => "data variable '" ++ name ++ "' is declared more than once"
  | duplicateTransition line => "transition duplicates the one declared on line " ++ toString line
  | unknownInterface name => "interface '" ++ name ++ "' is not in the interface description"
  | unknownMember kind name =>
      kind.text ++ " '" ++ name ++ "' is not a member of the implemented interfaces"
  | ambiguousMember kind name candidates =>
      kind.text ++ " '" ++ name ++ "' is ambiguous, qualify it with one of: " ++
        ", ".intercalate candidates
  | undeclaredVariable name => "undeclared variable '" ++ name ++ "'"
  | readOnlyVariable name => "'" ++ name ++ "' is a read-only argument and cannot be assigned"
  | typeMismatch context expected found =>
      "type mismatch in " ++ context ++ ": expected '" ++ expected.signature ++ "', found '" ++
        found.signature ++ "'"
  | initializerVariable name => "data initializers cannot refer to variables ('" ++ name ++ "')"
  | untypedArray => "cannot infer the element type of an empty array; annotate it with '@'"
  | untypedDict => "cannot infer the type of an empty dictionary; annotate it with '@'"
  | keyNotBasic ty => "dictionary keys must have a basic type, found '" ++ ty.signature ++ "'"
  | emptyChoice => "choose() needs at least one alternative"
  | negatedType ty => "operator '-' needs a numeric operand, found '" ++ ty.signature ++ "'"
  | operandType op ty =>
      "operator '" ++ op.symbol ++ "' cannot be applied to '" ++ ty.signature ++ "'"
  | unknownFunction name => "unknown function '" ++ name ++ "'"
  | functionType error => error.message
  | literalOutOfRange value ty =>
      "integer literal " ++ toString value ++ " does not fit type '" ++ ty.signature ++ "'"
  | invalidObjectPath path => "'" ++ path ++ "' is not a valid object path"
  | replyOutsideMethod => "'reply' is only allowed in transitions triggered by a method"
  | missingReply method =>
      "transition on method '" ++ method ++ "' must contain a 'reply' or a 'throw'"

inductive ParseError where
  | grammar (error : Surface.GrammarError)
  | semantic (position : Position) (error : SemanticError)

namespace ParseError

def position : ParseError → Position
  | grammar error => error.position
  | semantic position _ => position

def message : ParseError → String
  | grammar error => error.message
  | semantic _ error => error.message

def text (e : ParseError) : String :=
  toString e.position.line ++ ":" ++ toString e.position.column ++ ": " ++ e.message

end ParseError

end SimBus
