import SimBus.Expr
/-!
Definitions of simulated objects: where an object lives, which data it keeps,
its states, and the transitions between them. In a definition all names are
resolved; states are numbers, and the first state is the initial one.
-/

namespace SimBus

/-- A place in a source text. Lines and columns count from one, and a column is
one character. -/
structure Position where
  line : Nat
  column : Nat
  deriving DecidableEq, Repr, Inhabited

def Position.after (p : Position) (c : Char) : Position :=
  if c = '\n' then ⟨p.line + 1, 1⟩ else ⟨p.line, p.column + 1⟩

inductive Trigger where
  | method (interface member : String)
  | property (interface name : String)
  /-- Nothing from outside: the transition may fire on any tick. -/
  | arbitrary
  deriving DecidableEq, Repr

def Trigger.text : Trigger → String
  | method interface member => "method " ++ interface ++ "." ++ member
  | property interface name => "property " ++ interface ++ "." ++ name
  | arbitrary => "arbitrary"

inductive Statement where
  | assign (name : String) (value : Expr)
  | reply (payload : Expr)
  | emit (interface signal : String) (payload : Expr)
  /-- Raises an error and ends the transition. -/
  | throw (error : String) (message : Option Expr)

namespace Statement

def beq : Statement → Statement → Bool
  | assign a x, assign b y => a == b && x == y
  | reply x, reply y => x == y
  | emit i s x, emit j t y => i == j && s == t && x == y
  | throw e m, throw f n => e == f && m == n
  | _, _ => false

instance : BEq Statement := ⟨beq⟩

def isThrow : Statement → Bool
  | throw _ _ => true
  | _ => false

end Statement

structure Precondition where
  error : String
  condition : Expr

namespace Precondition

def beq (a b : Precondition) : Bool := a.error == b.error && a.condition == b.condition

instance : BEq Precondition := ⟨beq⟩

def isTrivial (p : Precondition) : Bool := p.condition == .literal (.bool true)

end Precondition

structure Transition where
  source : Nat
  target : Nat
  trigger : Trigger
  parameters : List (String × Ty)
  preconditions : List Precondition
  body : List Statement
  position : Position

namespace Transition

def isUnconditional (t : Transition) : Bool := t.preconditions.all Precondition.isTrivial

/-- Whether the body contains a `throw`, so that it never runs to its end. -/
def alwaysThrows (t : Transition) : Bool := t.body.any Statement.isThrow

/-- Whether two transitions say the same, wherever they stand. -/
def sameRule (a b : Transition) : Bool :=
  a.source == b.source && a.target == b.target && a.trigger == b.trigger &&
    a.preconditions == b.preconditions && a.body == b.body

end Transition

structure DataVariable where
  name : String
  ty : Ty
  initializer : Expr
  position : Position

structure Definition where
  path : String
  names : List String
  interfaces : List String
  data : List DataVariable
  states : List String
  transitions : List Transition
  position : Position

namespace Definition

def stateId? (d : Definition) (name : String) : Option Nat :=
  d.states.findIdx? (· == name)

/-- The name of a state; a number without a state has the empty name. -/
def stateName (d : Definition) (id : Nat) : String := d.states[id]?.getD ""

def dataType? (d : Definition) (name : String) : Option Ty :=
  (d.data.find? (·.name == name)).map DataVariable.ty

end Definition

end SimBus
