import SimBus.Definition
/-!
Which states an object can get into, judged by its transitions alone. A state
is reachable if it can be entered for certain, step by step, by transitions
that fire whenever their trigger comes; it is possibly reachable if that takes
luck or depends on the data.
-/

namespace SimBus

inductive StateClass where
  | reachable | possiblyReachable | unreachable
  deriving DecidableEq, Repr

def StateClass.text : StateClass → String
  | reachable => "reachable"
  | possiblyReachable => "possibly reachable"
  | unreachable => "unreachable"

namespace Reachability

/-- Nodes found so far, and those of them whose edges are still to be followed. -/
structure Work where
  selected : List Nat
  pending : List Nat

/-- Selects a node below `bound` that is not selected yet. -/
def enqueue (bound : Nat) (work : Work) (target : Nat) : Work :=
  if bound ≤ target ∨ target ∈ work.selected then work
  else ⟨target :: work.selected, work.pending ++ [target]⟩

/-- Follows the edges of pending nodes. A node is pending once at most, so
`bound` steps empty the list. -/
def explore (bound : Nat) (targets : Nat → List Nat) : (steps : Nat) → Work → List Nat
  | 0, work => work.selected
  | steps + 1, work =>
      match work.pending with
      | [] => work.selected
      | node :: rest =>
          explore bound targets steps
            ((targets node).foldl (enqueue bound) ⟨work.selected, rest⟩)

/-- The nodes below `bound` that paths from node 0 lead to. -/
def closure (bound : Nat) (targets : Nat → List Nat) : List Nat :=
  if bound = 0 then [] else explore bound targets bound ⟨[0], [0]⟩

end Reachability

namespace Definition

def isContested (d : Definition) (t : Transition) : Bool :=
  1 < (d.transitions.filter fun other =>
    other.source == t.source && other.trigger == t.trigger).length

/-- Whether a transition is taken whenever its trigger comes. -/
def isCertain (d : Definition) (t : Transition) : Bool :=
  t.trigger != .arbitrary && !d.isContested t && t.isUnconditional

/-- The states that transitions lead to which can run to their end. -/
def possibleTargets (d : Definition) (state : Nat) : List Nat :=
  (d.transitions.filter fun t => t.source == state && !t.alwaysThrows).map Transition.target

/-- The same, by transitions that are certain. -/
def certainTargets (d : Definition) (state : Nat) : List Nat :=
  (d.transitions.filter fun t => t.source == state && !t.alwaysThrows && d.isCertain t).map
    Transition.target

def classify (certain possible : List Nat) (state : Nat) : StateClass :=
  if state ∈ certain then .reachable
  else if state ∈ possible then .possiblyReachable
  else .unreachable

def stateClasses (d : Definition) : List (String × StateClass) :=
  let certain := Reachability.closure d.states.length d.certainTargets
  let possible := Reachability.closure d.states.length d.possibleTargets
  d.states.zipIdx.map fun entry => (entry.1, classify certain possible entry.2)

end Definition

def StateClass.among (c : StateClass) (states : List (String × StateClass)) : List String :=
  (states.filter (·.2 == c)).map Prod.fst

end SimBus
