import SimBus.Proofs.BodyRuns
/-!
What firing a trigger can come to. A firing finds no transition, is refused
while it looks for one, or runs the body of one that it found; only a body that
comes to its end changes the machine and the data.
-/

namespace SimBus

open Draws (Branch branch_pure_triple branch_bind_iff)
open Statement (Ends)

namespace Transition

theorem bindAll_ok_iff (parameters : List (String × Ty)) (values : List Value)
    (locals : List (String × Value)) (counted : values.length = parameters.length) :
    bindAll parameters values = .ok locals ↔ values.map Value.ty = parameters.map Prod.snd ∧
      locals = (parameters.map Prod.fst).zip values := by
  induction parameters generalizing values locals with
  | nil =>
      have empty : values = [] := List.eq_nil_of_length_eq_zero counted
      simp [bindAll, empty, eq_comm]
  | cons parameter parameters ih =>
      obtain ⟨name, ty⟩ := parameter
      cases values with
      | nil => simp at counted
      | cons value values =>
          have countedRest : values.length = parameters.length := by simpa using counted
          by_cases fits : value.ty = ty
          · cases others : bindAll parameters values with
            | error e =>
                have refused : ¬ values.map Value.ty = parameters.map Prod.snd := fun typed => by
                  have bound := (ih values _ countedRest).mpr ⟨typed, rfl⟩
                  simp [others] at bound
                simp [bindAll, fits, others, refused, bind, Except.bind]
            | ok rest =>
                have bound := (ih values rest countedRest).mp others
                simp [bindAll, fits, others, bind, Except.bind, pure, Except.pure, bound, eq_comm]
          · simp [bindAll, fits]

theorem bindArguments_ok_iff (t : Transition) (arguments : List Value)
    (locals : List (String × Value)) :
    t.bindArguments arguments = .ok locals ↔
      arguments.map Value.ty = t.parameters.map Prod.snd ∧
        locals = (t.parameters.map Prod.fst).zip arguments := by
  unfold bindArguments
  by_cases counted : arguments.length = t.parameters.length
  · simp only [counted, ↓reduceIte]
    exact bindAll_ok_iff t.parameters arguments locals counted
  · simp only [counted, ↓reduceIte, reduceCtorEq, false_iff, not_and]
    intro typed
    exact absurd (by simpa using congrArg List.length typed) counted

end Transition

namespace Machine

/-- A transition that reacts to the trigger, and the locals it takes from the
arguments. -/
structure Reacts (m : Machine) (trigger : Trigger) (arguments : List Value) (place : Nat)
    (t : Transition) (locals : List (String × Value)) : Prop where
  placed : m.definition.transitions[place]? = some t
  source : t.source = m.current
  trigger : t.trigger = trigger
  bound : t.bindArguments arguments = .ok locals

theorem Reacts.member {m : Machine} {trigger : Trigger} {arguments : List Value} {place : Nat}
    {t : Transition} {locals : List (String × Value)}
    (reacts : Reacts m trigger arguments place t locals) : t ∈ m.definition.transitions :=
  List.mem_of_getElem? reacts.placed

def Guarded (table : BuiltinTable) (env : Environment) (t : Transition)
    (locals : List (String × Value)) (outcome : Except EvalError (Option String)) : Prop :=
  Branch (Precondition.firstFailure ⟨table, env, locals⟩ t.preconditions).run outcome

/-- The results of firing a trigger, with the machine and the data afterwards. -/
inductive Fires (m : Machine) (table : BuiltinTable) (env : Environment) (trigger : Trigger)
    (arguments : List Value) : Except MachineError Firing → Machine → Environment → Prop where
  | noTransition : m.candidates trigger = [] →
      Fires m table env trigger arguments (.error (.noTransition m.stateName trigger)) m env
  | unbound {place : Nat} {t : Transition} {e : EvalError} :
      (place, t) ∈ m.candidates trigger → t.bindArguments arguments = .error e →
      Fires m table env trigger arguments (.error (.eval e)) m env
  | guardFault {place : Nat} {t : Transition} {locals : List (String × Value)} {e : EvalError} :
      Reacts m trigger arguments place t locals → Guarded table env t locals (.error e) →
      Fires m table env trigger arguments (.error (.eval e)) m env
  | blocked {place : Nat} {t : Transition} {locals : List (String × Value)} {error : String} :
      Reacts m trigger arguments place t locals → Guarded table env t locals (.ok (some error)) →
      Fires m table env trigger arguments
        (.error (.preconditionFailed error t.position.line m.stateName)) m env
  | bodyFault {place : Nat} {t : Transition} {locals : List (String × Value)} {e : EvalError}
      {middle : Environment} {output : Output} :
      Reacts m trigger arguments place t locals → Guarded table env t locals (.ok none) →
      Ends table locals t.body env (.faulted e) middle output →
      Fires m table env trigger arguments (.error (.eval e)) m env
  | raised {place : Nat} {t : Transition} {locals : List (String × Value)} {middle : Environment}
      {output : Output} :
      Reacts m trigger arguments place t locals → Guarded table env t locals (.ok none) →
      Ends table locals t.body env .raised middle output →
      Fires m table env trigger arguments (.ok ⟨place, m.current, m.current, output⟩) m env
  | completed {place : Nat} {t : Transition} {locals : List (String × Value)}
      {after : Environment} {output : Output} :
      Reacts m trigger arguments place t locals → Guarded table env t locals (.ok none) →
      Ends table locals t.body env .finished after output →
      Fires m table env trigger arguments (.ok ⟨place, m.current, t.target, output⟩)
        { m with current := t.target } after

theorem mem_candidates_iff (m : Machine) (trigger : Trigger) (place : Nat) (t : Transition) :
    (place, t) ∈ m.candidates trigger ↔
      m.definition.transitions[place]? = some t ∧ t.source = m.current ∧ t.trigger = trigger := by
  simp only [candidates, List.mem_map, List.mem_filter, reacts, Bool.and_eq_true, beq_iff_eq,
    Prod.mk.injEq, Prod.exists, List.mem_zipIdx_iff_getElem?]
  constructor
  · rintro ⟨t', place', ⟨placed, source, trigger⟩, rfl, rfl⟩
    exact ⟨placed, source, trigger⟩
  · rintro ⟨placed, source, trigger⟩
    exact ⟨t, place, ⟨placed, source, trigger⟩, rfl, rfl⟩

theorem execute_fires (m : Machine) (table : BuiltinTable) (env : Environment) (trigger : Trigger)
    (arguments : List Value) (place : Nat) (t : Transition) (locals : List (String × Value))
    (reacts : Reacts m trigger arguments place t locals)
    (guarded : Guarded table env t locals (.ok none))
    (result : Except MachineError Firing) (after : Machine) (data : Environment)
    (branch : Branch (m.execute table env locals place t) (result, after, data)) :
    Fires m table env trigger arguments result after data := by
  obtain ⟨⟨ending, middle, output⟩, ran, continued⟩ := (branch_bind_iff _ _ _).mp branch
  obtain ⟨effects, rfl, ends⟩ := Statement.run_ends t.body env middle [] output ending ran
  -- A body assigns values and declares nothing, so the saved values fit.
  have rolledBack : middle.restore env.snapshot = env :=
    Environment.restore_snapshot env middle (Statement.ends_frame ends)
  cases ending with
  | finished =>
      obtain ⟨rfl, rfl, rfl⟩ := branch_pure_triple continued
      exact .completed reacts guarded ends
  | raised =>
      simp only [rolledBack] at continued
      obtain ⟨rfl, rfl, rfl⟩ := branch_pure_triple continued
      exact .raised reacts guarded ends
  | faulted e =>
      simp only [rolledBack] at continued
      obtain ⟨rfl, rfl, rfl⟩ := branch_pure_triple continued
      exact .bodyFault reacts guarded ends

/-- A precondition that was seen to fail, as a firing remembers it. -/
def Blames (m : Machine) (table : BuiltinTable) (env : Environment) (trigger : Trigger)
    (arguments : List Value) (error : String) (line : Nat) : Prop :=
  ∃ place t locals, Reacts m trigger arguments place t locals ∧ t.position.line = line ∧
    Guarded table env t locals (.ok (some error))

theorem attempt_fires (m : Machine) (table : BuiltinTable) (env : Environment) (trigger : Trigger)
    (arguments : List Value) (left : List (Nat × Transition)) (failure : Option (String × Nat))
    (candidates : ∀ entry ∈ left, entry ∈ m.candidates trigger)
    (remaining : left ≠ [] ∨ failure.isSome)
    (blames : ∀ error line, failure = some (error, line) →
      Blames m table env trigger arguments error line)
    (result : Except MachineError Firing) (after : Machine) (data : Environment)
    (branch : Branch (m.attempt table env arguments left failure) (result, after, data)) :
    Fires m table env trigger arguments result after data := by
  induction left generalizing failure with
  | nil =>
      obtain ⟨⟨error, line⟩, rfl⟩ := Option.isSome_iff_exists.mp (remaining.resolve_left (· rfl))
      obtain ⟨place, t, locals, reacts, rfl, guarded⟩ := blames error line rfl
      simp only [attempt, Option.getD_some] at branch
      obtain ⟨rfl, rfl, rfl⟩ := branch_pure_triple branch
      exact .blocked reacts guarded
  | cons entry rest ih =>
      obtain ⟨place, t⟩ := entry
      have candidate : (place, t) ∈ m.candidates trigger := candidates _ List.mem_cons_self
      obtain ⟨placed, source, triggered⟩ := (mem_candidates_iff m trigger place t).mp candidate
      unfold attempt at branch
      cases bound : t.bindArguments arguments with
      | error e =>
          simp only [bound] at branch
          obtain ⟨rfl, rfl, rfl⟩ := branch_pure_triple branch
          exact .unbound candidate bound
      | ok locals =>
          simp only [bound] at branch
          have reacts : Reacts m trigger arguments place t locals :=
            ⟨placed, source, triggered, bound⟩
          obtain ⟨outcome, guarded, continued⟩ := (branch_bind_iff _ _ _).mp branch
          cases outcome with
          | error e =>
              obtain ⟨rfl, rfl, rfl⟩ := branch_pure_triple continued
              exact .guardFault reacts guarded
          | ok failed =>
              cases failed with
              | none =>
                  exact execute_fires m table env trigger arguments place t locals reacts guarded
                    result after data continued
              | some error =>
                  -- The first failure is kept, so only a fresh one has to be blamed on `t`.
                  refine ih _ (fun other member => candidates other (List.mem_cons_of_mem _ member))
                    (.inr (by cases failure <;> rfl)) (fun error' line same => ?_) continued
                  cases failure with
                  | none =>
                      simp only [Option.none_or, Option.some.injEq, Prod.mk.injEq] at same
                      obtain ⟨rfl, rfl⟩ := same
                      exact ⟨place, t, locals, reacts, rfl, guarded⟩
                  | some earlier => exact blames error' line (by simpa using same)

theorem fire_fires (m : Machine) (table : BuiltinTable) (env : Environment) (trigger : Trigger)
    (arguments : List Value) (result : Except MachineError Firing) (after : Machine)
    (data : Environment)
    (branch : Branch (m.fire table env trigger arguments) (result, after, data)) :
    Fires m table env trigger arguments result after data := by
  unfold fire at branch
  cases found : m.candidates trigger with
  | nil =>
      simp only [found] at branch
      obtain ⟨rfl, rfl, rfl⟩ := branch_pure_triple branch
      exact .noTransition found
  | cons first rest =>
      simp only [found] at branch
      obtain ⟨shuffled, order, tried⟩ := (branch_bind_iff _ _ _).mp branch
      have same := (Draws.shuffle_branch_iff _ _).mp order
      refine attempt_fires m table env trigger arguments shuffled none
        (fun entry member => found ▸ same.mem_iff.mp member) (.inl fun empty => ?_)
        (fun _ _ none => by cases none) result after data tried
      simpa [empty] using same.length_eq

end Machine

end SimBus
