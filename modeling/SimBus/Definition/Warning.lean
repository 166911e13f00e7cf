import SimBus.Definition
import SimBus.Interface
/-!
What is odd about a definition without being wrong: data that nothing uses, and
methods and transitions that lead nowhere.
-/

namespace SimBus

inductive Concern where
  | neverFires (property : String)
  | unusedData (name : String)
  | unhandledMethod (interface method : String)
  deriving DecidableEq

def Concern.message : Concern → String
  | neverFires property =>
      "property '" ++ property ++ "' is read-only, so this transition can never fire"
  | unusedData name => "data variable '" ++ name ++ "' is never used"
  | unhandledMethod interface method =>
      "method '" ++ interface ++ "." ++ method ++ "' has no transition and will always be rejected"

structure Warning where
  object : String
  position : Position
  concern : Concern
  deriving DecidableEq

namespace Warning

def message (w : Warning) : String := w.concern.message

def text (w : Warning) : String :=
  toString w.position.line ++ ":" ++ toString w.position.column ++ ": warning: " ++ w.message

end Warning

namespace Statement

def assigned : Statement → List String
  | assign name _ => [name]
  | _ => []

def variableNames : Statement → List String
  | assign _ value => value.variableNames
  | reply payload | emit _ _ payload => payload.variableNames
  | throw _ (some message) => message.variableNames
  | throw _ none => []

end Statement

namespace Transition

/-- The names that the transition reads and that are not its parameters. -/
def readData (t : Transition) : List String :=
  (t.preconditions.flatMap (·.condition.variableNames) ++
    t.body.flatMap Statement.variableNames).filter
    fun name => !t.parameters.any (·.1 == name)

def usedData (t : Transition) : List String := t.readData ++ t.body.flatMap Statement.assigned

end Transition

namespace Definition

def usesData (d : Definition) (name : String) : Bool :=
  d.transitions.any fun t => name ∈ t.usedData

/-- Data that no transition uses and no implemented interface exposes. -/
def unusedData (d : Definition) (interfaces : List Interface) : List Warning :=
  (d.data.filter fun declared =>
      !interfaces.any (fun i => (i.property? declared.name).isSome) &&
        !d.usesData declared.name).map
    fun declared => ⟨d.path, declared.position, .unusedData declared.name⟩

def handles (d : Definition) (interface method : String) : Bool :=
  d.transitions.any (·.trigger == .method interface method)

def unhandledMethods (d : Definition) (interfaces : List Interface) : List Warning :=
  interfaces.flatMap fun i =>
    (i.methods.filter fun m => !d.handles i.name m.name).map
      fun m => ⟨d.path, d.position, .unhandledMethod i.name m.name⟩

end Definition

end SimBus
