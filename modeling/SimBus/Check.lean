import SimBus.Program
import SimBus.Reachability
/-!
Checking programs without running them: whether a program is valid, and which
states of its objects nothing leads to.
-/

namespace SimBus

inductive CheckStatus where
  | success
  | badOptions
  | unreadable
  | invalid
  | unreachable
  deriving DecidableEq, Repr

def CheckStatus.code : CheckStatus → Nat
  | success => 0
  | badOptions => 1
  | unreadable => 2
  | invalid => 3
  | unreachable => 4

structure ObjectReport where
  path : String
  states : List (String × StateClass)

structure ProgramReport where
  warnings : List Warning
  objects : List ObjectReport

/-- The outcome of checking one program. The name of its file stands in front
of messages. -/
structure CheckReport where
  file : String
  outcome : Except ParseError ProgramReport

namespace CheckReport

def isValid (r : CheckReport) : Bool :=
  match r.outcome with
  | .ok _ => true
  | .error _ => false

def warnings (r : CheckReport) : List Warning :=
  match r.outcome with
  | .ok report => report.warnings
  | .error _ => []

def objects (r : CheckReport) : List ObjectReport :=
  match r.outcome with
  | .ok report => report.objects
  | .error _ => []

/-- The states of a class, each behind the path of its object. -/
def statesIn (r : CheckReport) (c : StateClass) : List (String × String) :=
  r.objects.flatMap fun object => (c.among object.states).map fun state => (object.path, state)

def errorMessage? (r : CheckReport) : Option String :=
  match r.outcome with
  | .ok _ => none
  | .error e => some (r.file ++ ":" ++ e.text)

def unreachableMessage (path state : String) : String :=
  "State '" ++ state ++ "' of object '" ++ path ++ "' is unreachable."

def possiblyReachableMessage (path state : String) : String :=
  "State '" ++ state ++ "' of object '" ++ path ++
    "' is reachable only through nondeterministic transitions."

def unreachableMessages (r : CheckReport) : List String :=
  (r.statesIn .unreachable).map fun entry => unreachableMessage entry.1 entry.2

def possiblyReachableMessages (r : CheckReport) : List String :=
  (r.statesIn .possiblyReachable).map fun entry => possiblyReachableMessage entry.1 entry.2

def status (r : CheckReport) : CheckStatus :=
  if !r.isValid then .invalid
  else if (r.statesIn .unreachable).isEmpty then .success
  else .unreachable

/-- The status of several reports. An invalid program weighs more than a state
that is never entered. -/
def overallStatus (reports : List CheckReport) : CheckStatus :=
  if reports.any (!·.isValid) then .invalid
  else if reports.any (·.status == .unreachable) then .unreachable
  else .success

end CheckReport

def Program.check (table : BuiltinTable) (known : InterfaceSet) (file text : String) :
    CheckReport :=
  { file := file
    outcome := (Program.parse table known text).map fun program =>
      { warnings := program.warnings
        objects := program.definitions.map fun d => ⟨d.path, d.stateClasses⟩ } }

end SimBus
