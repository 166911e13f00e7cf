import SimBus.Definition
import SimBus.Expr.Eval
/-!
Running a definition. A machine is a definition and its current state; firing
a trigger picks one of the transitions that react to it. Firing is all or
nothing: a body changes the data as it goes, and when it does not run to its
end, the data is put back and the state stays.
-/

namespace SimBus

inductive Effect where
  | reply (payload : Value)
  | error (name message : String)
  | signal (interface name : String) (payload : Value)

abbrev Output := List Effect

namespace Output

def reply? : Output → Option Value
  | [] => none
  | .reply payload :: _ => some payload
  | _ :: rest => reply? rest

def error? : Output → Option (String × String)
  | [] => none
  | .error name message :: _ => some (name, message)
  | _ :: rest => error? rest

def signals : Output → List (String × String × Value)
  | [] => []
  | .signal interface name payload :: rest => (interface, name, payload) :: signals rest
  | _ :: rest => signals rest

end Output

structure Firing where
  transition : Nat
  source : Nat
  /-- The state afterwards, which is the source if an error was raised. -/
  target : Nat
  output : Output

def Firing.completed (f : Firing) : Bool := (Output.error? f.output).isNone

inductive MachineError where
  | noTransition (state : String) (trigger : Trigger)
  /-- No transition was free to fire. The error is that of a precondition which
  does not hold, of a transition on the given line. -/
  | preconditionFailed (error : String) (line : Nat) (state : String)
  | eval (error : EvalError)

namespace MachineError

def message : MachineError → String
  | noTransition state trigger => "no transition from state '" ++ state ++ "' on " ++ trigger.text
  | preconditionFailed error _ _ => "precondition failed, raising " ++ error
  | eval error => "evaluation failed: " ++ error.message

def preconditionText (line : Nat) (state : String) : String :=
  "precondition of the transition on line " ++ toString line ++ " does not hold in state '" ++
    state ++ "'"

end MachineError

namespace Transition

/-- Pairs names with values, whose types have to be the declared ones. -/
def bindAll : List (String × Ty) → List Value → Except EvalError (List (String × Value))
  | (name, ty) :: parameters, value :: values =>
      if value.ty = ty then do
        let others ← bindAll parameters values
        pure ((name, value) :: others)
      else .error (.typeMismatch name ty value.ty)
  | _, _ => .ok []

def bindArguments (t : Transition) (arguments : List Value) :
    Except EvalError (List (String × Value)) :=
  if arguments.length = t.parameters.length then bindAll t.parameters arguments
  else .error (.arity ("arguments of " ++ t.trigger.text) t.parameters.length arguments.length)

end Transition

def Precondition.firstFailure (ctx : EvalContext) : List Precondition → Eval (Option String)
  | [] => pure none
  | p :: rest => do
      let holds ← p.condition.eval ctx
      if holds == .bool true then firstFailure ctx rest else pure (some p.error)

/-- How a body ends: behind its last statement, at an error that it raises, or
at a fault of evaluation. -/
inductive BodyEnd where
  | finished
  | raised
  | faulted (error : EvalError)

namespace Statement

def messageText : Value → String
  | .string text => text
  | other => other.text

/-- Runs a body on the data of an object. Assignments are seen by the
statements after them. The data and the output are the ones at the point where
the body ends, wherever that is. -/
def run (table : BuiltinTable) (locals : List (String × Value)) :
    List Statement → Environment → Output → Draws (BodyEnd × Environment × Output)
  | [], env, output => pure (.finished, env, output)
  | assign name value :: rest, env, output => do
      match ← (value.eval ⟨table, env, locals⟩).run with
      | .error e => pure (.faulted e, env, output)
      | .ok value =>
          match env.assign name value with
          | .error e => pure (.faulted e, env, output)
          | .ok env => run table locals rest env output
  | reply payload :: rest, env, output => do
      match ← (payload.eval ⟨table, env, locals⟩).run with
      | .error e => pure (.faulted e, env, output)
      | .ok payload => run table locals rest env (output ++ [.reply payload])
  | emit interface signal payload :: rest, env, output => do
      match ← (payload.eval ⟨table, env, locals⟩).run with
      | .error e => pure (.faulted e, env, output)
      | .ok payload => run table locals rest env (output ++ [.signal interface signal payload])
  | throw error none :: _, env, output => pure (.raised, env, output ++ [.error error ""])
  | throw error (some message) :: _, env, output => do
      match ← (message.eval ⟨table, env, locals⟩).run with
      | .error e => pure (.faulted e, env, output)
      | .ok message => pure (.raised, env, output ++ [.error error (messageText message)])

end Statement

structure Machine where
  definition : Definition
  current : Nat

namespace Machine

def new (definition : Definition) : Machine := ⟨definition, 0⟩

def stateName (m : Machine) : String := m.definition.stateName m.current

def reacts (m : Machine) (trigger : Trigger) (t : Transition) : Bool :=
  t.source == m.current && t.trigger == trigger

def candidates (m : Machine) (trigger : Trigger) : List (Nat × Transition) :=
  (m.definition.transitions.zipIdx.filter fun entry => m.reacts trigger entry.1).map
    fun entry => (entry.2, entry.1)

def accepts (m : Machine) (trigger : Trigger) : Bool :=
  m.definition.transitions.any (m.reacts trigger)

/-- Runs the body of a transition. Unless the body comes to its end, the values
that it assigned are taken back and the state stays. -/
def execute (m : Machine) (table : BuiltinTable) (env : Environment)
    (locals : List (String × Value)) (place : Nat) (t : Transition) :
    Draws (Except MachineError Firing × Machine × Environment) := do
  let saved := env.snapshot
  let (ending, after, output) ← Statement.run table locals t.body env []
  match ending with
  | .finished =>
      pure (.ok ⟨place, m.current, t.target, output⟩, { m with current := t.target }, after)
  | .raised => pure (.ok ⟨place, m.current, m.current, output⟩, m, after.restore saved)
  | .faulted e => pure (.error (.eval e), m, after.restore saved)

/-- Tries transitions one after the other; the first whose preconditions all
hold is executed. `failure` is the first precondition that did not hold. -/
def attempt (m : Machine) (table : BuiltinTable) (env : Environment) (arguments : List Value) :
    List (Nat × Transition) → (failure : Option (String × Nat)) →
      Draws (Except MachineError Firing × Machine × Environment)
  | [], failure =>
      let (error, line) := failure.getD ("", 0)
      pure (.error (.preconditionFailed error line m.stateName), m, env)
  | (place, t) :: rest, failure =>
      match t.bindArguments arguments with
      | .error e => pure (.error (.eval e), m, env)
      | .ok locals => do
          match ← (Precondition.firstFailure ⟨table, env, locals⟩ t.preconditions).run with
          | .error e => pure (.error (.eval e), m, env)
          | .ok (some error) =>
              attempt m table env arguments rest (failure.or (some (error, t.position.line)))
          | .ok none => m.execute table env locals place t

/-- Fires a trigger: the transitions that react to it are tried in random
order. The machine and the data are those afterwards. -/
def fire (m : Machine) (table : BuiltinTable) (env : Environment) (trigger : Trigger)
    (arguments : List Value) : Draws (Except MachineError Firing × Machine × Environment) :=
  match m.candidates trigger with
  | [] => pure (.error (.noTransition m.stateName trigger), m, env)
  | candidates => do
      let candidates ← Draws.shuffle candidates
      attempt m table env arguments candidates none

end Machine

namespace Definition

def declareAll (table : BuiltinTable) : List DataVariable → Environment → Eval Environment
  | [], env => pure env
  | declared :: rest, env => do
      let value ← declared.initializer.eval ⟨table, env, []⟩
      let env ← Eval.ofExcept (env.declare declared.name declared.ty value)
      declareAll table rest env

def initialData (d : Definition) (table : BuiltinTable) : Eval Environment :=
  declareAll table d.data Environment.empty

end Definition

end SimBus
