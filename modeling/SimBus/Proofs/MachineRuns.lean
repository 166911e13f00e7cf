import SimBus.Proofs.ObjectRuns
import SimBus.Proofs.WellFormedDefinitions
/-!
Runs of a machine. The transitions of an accepted definition lead from states to
states, so its machine stays inside the table of states, whatever it is fired with.
-/

namespace SimBus

open Draws (Branch)

namespace Machine

inductive Reached (d : Definition) (table : BuiltinTable) : Machine → Environment → Prop where
  | new (env : Environment) : Reached d table (Machine.new d) env
  | fired {m after : Machine} {env data : Environment} {trigger : Trigger} {arguments : List Value}
      {result : Except MachineError Firing} : Reached d table m env →
      Branch (m.fire table env trigger arguments) (result, after, data) → Reached d table after data
  | reset {m : Machine} {env : Environment} : Reached d table m env →
      Reached d table (Machine.new m.definition) env.reset

/-- What a firing tells about the machine before and after it. -/
inductive Steps (m : Machine) (trigger : Trigger) :
    Except MachineError Firing → Machine → Prop where
  | refused (e : MachineError) : Steps m trigger (.error e) m
  | taken {firing : Firing} {t : Transition} :
      m.definition.transitions[firing.transition]? = some t → t.source = m.current →
      t.trigger = trigger → firing.source = m.current →
      firing.target = (if firing.completed then t.target else m.current) →
      Steps m trigger (.ok firing) { m with current := firing.target }

structure Inside (d : Definition) (m : Machine) : Prop where
  definition : m.definition = d
  current : d.states[m.current]? = some m.stateName

theorem inside_iff (d : Definition) (m : Machine) :
    Inside d m ↔ m.definition = d ∧ m.current < d.states.length := by
  constructor
  · rintro ⟨definition, current⟩
    exact ⟨definition, (List.getElem?_eq_some_iff.mp current).1⟩
  · rintro ⟨rfl, inRange⟩
    refine ⟨rfl, ?_⟩
    rw [stateName, Definition.stateName, List.getElem?_eq_getElem inRange]
    rfl

variable {table : BuiltinTable}

theorem fire_steps (m : Machine) (env : Environment) (trigger : Trigger) (arguments : List Value)
    (result : Except MachineError Firing) (after : Machine) (data : Environment)
    (branch : Branch (m.fire table env trigger arguments) (result, after, data)) :
    Steps m trigger result after := by
  cases fire_fires m table env trigger arguments result after data branch with
  | noTransition | unbound | guardFault | blocked | bodyFault => exact .refused _
  | @raised place t _ _ _ reacts _ ends =>
      -- An error in the output says that the body did not complete.
      cases ends with
      | @raised _ _ _ _ effects name text _ executes _ =>
          have failed := Output.error?_ended effects name text (Statement.executes_error? executes)
          apply Steps.taken reacts.placed reacts.source reacts.trigger rfl
          simp [Firing.completed, failed]
  | @completed place t _ _ _ reacts _ ends =>
      cases ends with
      | finished executes =>
          have clean := Statement.executes_error? executes
          apply Steps.taken reacts.placed reacts.source reacts.trigger rfl
          simp [Firing.completed, clean]

theorem steps_inside (d : Definition) (inRange : d.InRange) (m after : Machine) (trigger : Trigger)
    (result : Except MachineError Firing) (inside : Inside d m)
    (steps : Steps m trigger result after) : Inside d after := by
  cases steps with
  | refused e => exact inside
  | @taken firing t placed source _ _ moved =>
      obtain ⟨rfl, current⟩ := (inside_iff d m).mp inside
      refine (inside_iff _ _).mpr ⟨rfl, ?_⟩
      simp only [moved]
      split
      · exact inRange.target t (List.mem_of_getElem? placed)
      · exact current

theorem reached_inside (d : Definition) (inRange : d.InRange) (m : Machine) (env : Environment)
    (reached : Reached d table m env) : Inside d m := by
  have fresh : Inside d (Machine.new d) := (inside_iff _ _).mpr ⟨rfl, inRange.initial⟩
  induction reached with
  | new env => exact fresh
  | fired _ branch ih =>
      exact steps_inside d inRange _ _ _ _ ih (fire_steps _ _ _ _ _ _ _ branch)
  | reset _ ih => exact ih.definition ▸ fresh

end Machine

namespace Definition

theorem WellFormed.inRange {known : InterfaceSet} {raw : Surface.Object} {d : Definition}
    (wellFormed : d.WellFormed known raw) : d.InRange := by
  constructor
  · exact List.length_pos_iff.mpr wellFormed.states.1
  · intro t member
    obtain ⟨_, _, written⟩ := forall₂_mem_right wellFormed.transitions t member
    exact (List.getElem?_eq_some_iff.mp written.source).1
  · intro t member
    obtain ⟨_, _, written⟩ := forall₂_mem_right wellFormed.transitions t member
    exact (List.getElem?_eq_some_iff.mp written.target).1

end Definition

/-- The definitions of an accepted program are well-formed, and a machine that runs
one stays in its states. -/
theorem Program.parse_wellFormed (table : BuiltinTable) (known : InterfaceSet) (text : String)
    (program : Program) (accepted : Program.parse table known text = .ok program) :
    (∃ raws, Surface.parse text = .ok raws ∧
      List.Forall₂ (fun raw d => d.WellFormed known raw) raws program.definitions) ∧
    ∀ d ∈ program.definitions, ∀ m env, Machine.Reached d table m env →
      Machine.Inside d m ∧
      ∀ trigger arguments result after data,
        Branch (m.fire table env trigger arguments) (result, after, data) →
          Machine.Steps m trigger result after ∧ Machine.Inside d after := by
  obtain ⟨raws, read, become⟩ := Resolution.parse_objects table known text program accepted
  have wellFormed :
      List.Forall₂ (fun raw d => d.WellFormed known raw) raws program.definitions := by
    apply become.imp
    rintro raw d ⟨ctx, resolved⟩
    exact Resolution.resolved_wellFormed resolved
  refine ⟨⟨raws, read, wellFormed⟩, ?_⟩
  intro d member m env reached
  obtain ⟨raw, -, formed⟩ := forall₂_mem_right wellFormed d member
  have inside := Machine.reached_inside d formed.inRange m env reached
  refine ⟨inside, ?_⟩
  intro trigger arguments result after data branch
  have steps := Machine.fire_steps m env trigger arguments result after data branch
  exact ⟨steps, Machine.steps_inside d formed.inRange m after trigger result inside steps⟩

theorem lamp_lit_inside :
    (∃ raws, Surface.parse lampText = .ok raws ∧
      List.Forall₂ (fun raw d => d.WellFormed lampKnown raw) raws [lamp]) ∧
    Machine.Inside lamp (Object.lampGlowing 1 5 (by decide) 1).machine ∧
    (Object.lampGlowing 1 5 (by decide) 1).machine.stateName = "on" := by
  have off : Machine.Reached lamp Builtin.standard (Machine.new lamp)
      (Object.lampGlowing 0 0 (by decide) 0).env := .new _
  have on : Machine.Reached lamp Builtin.standard (Object.lampGlowing 1 5 (by decide) 1).machine
      (Object.lampGlowing 1 5 (by decide) 1).env :=
    .fired off (Draws.run_branch Draws.listedAnswers
      ((Machine.new lamp).fire Builtin.standard (Object.lampGlowing 0 0 (by decide) 0).env
        (.method "test.Lamp" "Light") Object.lampCall.arguments) [])
  obtain ⟨wellFormed, runs⟩ :=
    Program.parse_wellFormed Builtin.standard lampKnown lampText ⟨[lamp], []⟩ lamp_parsed
  exact ⟨wellFormed, (runs lamp (List.mem_singleton_self lamp) _ _ on).1, rfl⟩

end SimBus
