import SimBus.Machine
import SimBus.Proofs.DataFrame
import SimBus.Proofs.DrawBranches
/-!
Bodies of transitions, statement by statement. A body either runs to its end,
or up to a `throw`, or up to a statement with a fault; what it did until then is
the same kind of run in all three cases.
-/

namespace SimBus

open Draws (Branch branch_pure_triple branch_bind_iff)

namespace Output

theorem signals_append (first second : Output) :
    signals (first ++ second) = signals first ++ signals second := by
  induction first with
  | nil => rfl
  | cons effect rest ih => cases effect <;> simp [signals, ih]

theorem error?_append (first second : Output) :
    error? (first ++ second) = (error? first).or (error? second) := by
  induction first with
  | nil => rfl
  | cons effect rest ih => cases effect <;> simp [error?, ih]

theorem error?_ended (effects : Output) (name text : String) (clean : error? effects = none) :
    error? (effects ++ [.error name text]) = some (name, text) := by
  rw [error?_append, clean]
  rfl

theorem signals_ended (effects : Output) (name text : String) :
    signals (effects ++ [.error name text]) = effects.signals := by
  simp [signals_append, signals]

end Output

namespace Statement

variable (table : BuiltinTable) (locals : List (String × Value))

def expression? : Statement → Option Expr
  | assign _ value => some value
  | reply payload | emit _ _ payload => some payload
  | throw _ message => message

/-- Statements that run one after the other to the last one, with the effects
they have and the data they leave. None of them is a `throw`. -/
inductive Executes : List Statement → Environment → Output → Environment → Prop where
  | done (env : Environment) : Executes [] env [] env
  | assign {name : String} {value : Expr} {v : Value} {rest : List Statement}
      {env middle after : Environment} {effects : Output} :
      Branch (value.eval ⟨table, env, locals⟩).run (.ok v) → env.assign name v = .ok middle →
      Executes rest middle effects after → Executes (.assign name value :: rest) env effects after
  | reply {payload : Expr} {v : Value} {rest : List Statement} {env after : Environment}
      {effects : Output} :
      Branch (payload.eval ⟨table, env, locals⟩).run (.ok v) → Executes rest env effects after →
      Executes (.reply payload :: rest) env (.reply v :: effects) after
  | emit {interface signal : String} {payload : Expr} {v : Value} {rest : List Statement}
      {env after : Environment} {effects : Output} :
      Branch (payload.eval ⟨table, env, locals⟩).run (.ok v) → Executes rest env effects after →
      Executes (.emit interface signal payload :: rest) env (.signal interface signal v :: effects)
        after

inductive Raises (env : Environment) : Statement → String → String → Prop where
  | silent (error : String) : Raises env (.throw error none) error ""
  | spoken {error : String} {message : Expr} {v : Value} :
      Branch (message.eval ⟨table, env, locals⟩).run (.ok v) →
      Raises env (.throw error (some message)) error (messageText v)

/-- The faults of a statement: those of its expression, and a value that the
assigned variable does not take. -/
inductive Faults (env : Environment) : Statement → EvalError → Prop where
  | evaluated {s : Statement} {expr : Expr} {e : EvalError} : s.expression? = some expr →
      Branch (expr.eval ⟨table, env, locals⟩).run (.error e) → Faults env s e
  | assigned {name : String} {value : Expr} {v : Value} {e : EvalError} :
      Branch (value.eval ⟨table, env, locals⟩).run (.ok v) → env.assign name v = .error e →
      Faults env (.assign name value) e

/-- How a body can end, with the data and the output at that point. -/
inductive Ends (body : List Statement) (env : Environment) :
    BodyEnd → Environment → Output → Prop where
  | finished {after : Environment} {effects : Output} :
      Executes table locals body env effects after → Ends body env .finished after effects
  | raised {before rest : List Statement} {s : Statement} {after : Environment} {effects : Output}
      {name text : String} : body = before ++ s :: rest →
      Executes table locals before env effects after → Raises table locals after s name text →
      Ends body env .raised after (effects ++ [.error name text])
  | faulted {before rest : List Statement} {s : Statement} {after : Environment}
      {effects : Output} {e : EvalError} : body = before ++ s :: rest →
      Executes table locals before env effects after → Faults table locals after s e →
      Ends body env (.faulted e) after effects

variable {table locals}

theorem ends_cons {s : Statement} {rest : List Statement} {env middle after : Environment}
    {effects : Output} {ending : BodyEnd} (own : Output)
    (step : ∀ {more : List Statement} {later : Output} {last : Environment},
      Executes table locals more middle later last →
        Executes table locals (s :: more) env (own ++ later) last)
    (ends : Ends table locals rest middle ending after effects) :
    Ends table locals (s :: rest) env ending after (own ++ effects) := by
  cases ends with
  | finished executes => exact .finished (step executes)
  | raised split executes raises =>
      rw [← List.append_assoc]
      exact .raised (congrArg (s :: ·) split) (step executes) raises
  | faulted split executes faults =>
      exact .faulted (congrArg (s :: ·) split) (step executes) faults

theorem ends_raised_first {s : Statement} {rest : List Statement} {env : Environment}
    {name text : String} (raises : Raises table locals env s name text) :
    Ends table locals (s :: rest) env .raised env [.error name text] := by
  have split : s :: rest = [] ++ s :: rest := rfl
  have ends : Ends table locals (s :: rest) env .raised env ([] ++ [.error name text]) :=
    .raised split (.done env) raises
  exact ends

theorem run_faulted_first {s : Statement} {rest : List Statement} {env after : Environment}
    {output final : Output} {ending : BodyEnd} {e : EvalError}
    (faults : Faults table locals env s e)
    (stopped : Branch (pure (BodyEnd.faulted e, env, output)) (ending, after, final)) :
    ∃ effects, final = output ++ effects ∧
      Ends table locals (s :: rest) env ending after effects := by
  obtain ⟨rfl, rfl, rfl⟩ := branch_pure_triple stopped
  have split : s :: rest = [] ++ s :: rest := rfl
  exact ⟨[], (List.append_nil _).symm, .faulted split (.done _) faults⟩

theorem run_ends (body : List Statement) (env after : Environment) (output final : Output)
    (ending : BodyEnd) (branch : Branch (run table locals body env output) (ending, after, final)) :
    ∃ effects, final = output ++ effects ∧ Ends table locals body env ending after effects := by
  -- The data and the output change from statement to statement, so both are general.
  induction body generalizing env output with
  | nil =>
      simp only [run] at branch
      obtain ⟨rfl, rfl, rfl⟩ := branch_pure_triple branch
      exact ⟨[], (List.append_nil _).symm, .finished (.done _)⟩
  | cons s rest ih =>
      cases s with
      | assign name value =>
          obtain ⟨result, evaluated, continued⟩ := (branch_bind_iff _ _ _).mp branch
          cases result with
          | error e => exact run_faulted_first (.evaluated rfl evaluated) continued
          | ok v =>
              cases assigned : env.assign name v with
              | error e =>
                  simp only [assigned] at continued
                  exact run_faulted_first (.assigned evaluated assigned) continued
              | ok middle =>
                  simp only [assigned] at continued
                  obtain ⟨effects, rfl, ends⟩ := ih middle output continued
                  exact ⟨effects, rfl,
                    ends_cons [] (fun later => .assign evaluated assigned later) ends⟩
      | reply payload =>
          obtain ⟨result, evaluated, continued⟩ := (branch_bind_iff _ _ _).mp branch
          cases result with
          | error e => exact run_faulted_first (.evaluated rfl evaluated) continued
          | ok v =>
              obtain ⟨effects, rfl, ends⟩ := ih env _ continued
              exact ⟨.reply v :: effects, by simp,
                ends_cons [.reply v] (fun later => .reply evaluated later) ends⟩
      | emit interface signal payload =>
          obtain ⟨result, evaluated, continued⟩ := (branch_bind_iff _ _ _).mp branch
          cases result with
          | error e => exact run_faulted_first (.evaluated rfl evaluated) continued
          | ok v =>
              obtain ⟨effects, rfl, ends⟩ := ih env _ continued
              exact ⟨.signal interface signal v :: effects, by simp,
                ends_cons [.signal interface signal v]
                  (fun later => .emit evaluated later) ends⟩
      | throw error message =>
          cases message with
          | none =>
              simp only [run] at branch
              obtain ⟨rfl, rfl, rfl⟩ := branch_pure_triple branch
              exact ⟨[.error error ""], rfl, ends_raised_first (.silent error)⟩
          | some message =>
              obtain ⟨result, evaluated, continued⟩ := (branch_bind_iff _ _ _).mp branch
              cases result with
              | error e => exact run_faulted_first (.evaluated rfl evaluated) continued
              | ok v =>
                  obtain ⟨rfl, rfl, rfl⟩ := branch_pure_triple continued
                  exact ⟨[.error error (messageText v)], rfl,
                    ends_raised_first (.spoken evaluated)⟩

theorem executes_frame {body : List Statement} {env after : Environment} {effects : Output}
    (executes : Executes table locals body env effects after) : after.frame = env.frame := by
  induction executes with
  | done env => rfl
  | assign _ assigned _ ih => exact ih.trans (Environment.assign_frame _ _ _ _ assigned)
  | reply _ _ ih => exact ih
  | emit _ _ ih => exact ih

theorem ends_frame {body : List Statement} {env after : Environment} {ending : BodyEnd}
    {output : Output} (ends : Ends table locals body env ending after output) :
    after.frame = env.frame := by
  cases ends with
  | finished executes => exact executes_frame executes
  | raised _ executes _ => exact executes_frame executes
  | faulted _ executes _ => exact executes_frame executes

theorem executes_error? {body : List Statement} {env after : Environment} {effects : Output}
    (executes : Executes table locals body env effects after) : effects.error? = none := by
  induction executes with
  | done env => rfl
  | assign _ _ _ ih => exact ih
  | reply _ _ ih => exact ih
  | emit _ _ ih => exact ih

def emitted? : Statement → Option (String × String)
  | emit interface signal _ => some (interface, signal)
  | _ => none

theorem executes_signals {body : List Statement} {env after : Environment} {effects : Output}
    (executes : Executes table locals body env effects after) :
    effects.signals.map (fun s => (s.1, s.2.1)) = body.filterMap emitted? := by
  induction executes with
  | done env => rfl
  | assign _ _ _ ih => simpa [List.filterMap_cons, emitted?] using ih
  | reply _ _ ih => simpa [List.filterMap_cons, emitted?, Output.signals] using ih
  | emit _ _ ih => simpa [List.filterMap_cons, emitted?, Output.signals] using ih

theorem executes_emits {body : List Statement} {env after : Environment} {effects : Output}
    (executes : Executes table locals body env effects after) :
    ∀ s ∈ effects.signals, ∃ payload, .emit s.1 s.2.1 payload ∈ body := by
  intro s listed
  have named : (s.1, s.2.1) ∈ body.filterMap emitted? := by
    rw [← executes_signals executes]
    exact List.mem_map_of_mem listed
  obtain ⟨statement, inBody, emits⟩ := List.mem_filterMap.mp named
  cases statement with
  | emit interface name payload =>
      obtain ⟨rfl, rfl⟩ := Prod.mk.inj (Option.some.inj emits)
      exact ⟨payload, inBody⟩
  | _ => cases emits

theorem executes_throwFree {body : List Statement} {env after : Environment} {effects : Output}
    (executes : Executes table locals body env effects after) :
    body.any Statement.isThrow = false := by
  induction executes with
  | done env => rfl
  | assign _ _ _ ih => simpa [isThrow] using ih
  | reply _ _ ih => simpa [isThrow] using ih
  | emit _ _ ih => simpa [isThrow] using ih

theorem raises_isThrow {env : Environment} {s : Statement} {name text : String}
    (raises : Raises table locals env s name text) : s.isThrow = true := by
  cases raises <;> rfl

end Statement

end SimBus
