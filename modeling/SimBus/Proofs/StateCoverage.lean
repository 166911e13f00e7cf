import SimBus.Proofs.ObjectRuns
import SimBus.Proofs.Resolved
import SimBus.Proofs.StateClosure
/-!
The classes of states cover what objects do. The state of an object is always
connected to the initial one by transitions without a `throw`, because a body
with a `throw` never runs to its end; so it is never classified `unreachable`.
-/

namespace SimBus

open Draws (Branch)
open Reachability (Connected)

namespace Machine

/-- A completed firing follows an edge of the graph that the classes are
computed from. -/
structure FollowsEdge (m : Machine) (firing : Firing) (after : Machine) (t : Transition) :
    Prop where
  placed : m.definition.transitions[firing.transition]? = some t
  source : t.source = m.current ∧ firing.source = m.current
  target : after = { m with current := t.target } ∧ firing.target = t.target
  throwFree : t.alwaysThrows = false
  edge : t.target ∈ m.definition.possibleTargets t.source
  inRange : t.source < m.definition.states.length ∧ t.target < m.definition.states.length

theorem executes_edge (m : Machine) (table : BuiltinTable) (env after : Environment)
    (trigger : Trigger) (arguments : List Value) (place : Nat) (t : Transition)
    (locals : List (String × Value)) (effects : Output)
    (reacts : m.Reacts trigger arguments place t locals)
    (executes : Statement.Executes table locals t.body env effects after) :
    t.alwaysThrows = false ∧ t.target ∈ m.definition.possibleTargets m.current := by
  have throwFree : t.alwaysThrows = false := Statement.executes_throwFree executes
  exact ⟨throwFree, (Definition.mem_possibleTargets_iff m.definition m.current t.target).mpr
    ⟨t, reacts.member, reacts.source, throwFree, rfl⟩⟩

theorem completed_followsEdge (m : Machine) (inRange : m.definition.InRange)
    (table : BuiltinTable) (env data : Environment) (trigger : Trigger) (arguments : List Value)
    (firing : Firing) (after : Machine)
    (branch : Branch (m.fire table env trigger arguments) (.ok firing, after, data))
    (completed : firing.completed = true) : ∃ t, m.FollowsEdge firing after t := by
  cases fire_fires m table env trigger arguments _ after data branch with
  | raised _ _ ends =>
      cases ends with
      | raised _ executes _ =>
          simp [Firing.completed,
            Output.error?_ended _ _ _ (Statement.executes_error? executes)] at completed
  | @completed place t locals _ output reacts guarded ends =>
      obtain ⟨executes⟩ := ends
      obtain ⟨throwFree, edge⟩ := executes_edge m table env data trigger arguments place t locals
        output reacts executes
      exact ⟨t, reacts.placed, ⟨reacts.source, rfl⟩, ⟨rfl, rfl⟩, throwFree, reacts.source ▸ edge,
        inRange.source t reacts.member, inRange.target t reacts.member⟩

end Machine

namespace Object

/-- The invariant of runs: the current state is connected to the initial one. -/
def Covered (d : Definition) (m : Machine) (_ : Environment) : Prop :=
  m.definition = d ∧ Connected d.states.length d.possibleTargets m.current

theorem covered_kept (d : Definition) (inRange : d.InRange) (good : Value → Prop) (o : Object)
    (machine : Machine) (env : Environment) (covered : Covered d o.machine o.env)
    (evolves : Evolves good o machine env) : Covered d machine env := by
  obtain ⟨rfl, connected⟩ := covered
  cases evolves with
  | stayed => exact ⟨rfl, connected⟩
  | reset => exact ⟨rfl, .start inRange.initial⟩
  | @moved trigger arguments place t locals effects _ _ reacts _ executes =>
      obtain ⟨-, edge⟩ := Machine.executes_edge o.machine o.builtins o.env env trigger arguments
        place t locals effects reacts executes
      exact ⟨rfl, .follow connected edge (inRange.target t reacts.member)⟩
  | assigned => exact ⟨rfl, connected⟩

/-- No run gets into a state that is classified `unreachable`, and every firing
in it that completes follows an edge of the graph. -/
theorem reached_covered (table : BuiltinTable) (known : InterfaceSet) (text : String)
    (program : Program) (d : Definition) (o : Object)
    (accepted : Program.parse table known text = .ok program) (member : d ∈ program.definitions)
    (reached : Reached d known table (fun _ => True) o) :
    o.definition = d ∧
      (∃ name c, d.stateClasses[o.machine.current]? = some (name, c) ∧ c ≠ .unreachable) ∧
      ∀ trigger arguments firing after data,
        Branch (o.machine.fire o.builtins o.env trigger arguments) (.ok firing, after, data) →
          firing.completed = true → ∃ t, o.machine.FollowsEdge firing after t := by
  obtain ⟨raw, ctx, resolved⟩ :=
    Resolution.parse_resolved table known text program d accepted member
  have inRange : d.InRange := Definition.resolved_inRange table known raw d ctx resolved
  obtain ⟨-, same, connected⟩ := reached_invariant d known table (fun _ => True)
    (fun _ _ => trivial) (Covered d) (fun _ _ => ⟨rfl, .start inRange.initial⟩)
    (fun o machine env _ => covered_kept d inRange _ o machine env) o reached
  refine ⟨same, ?_, ?_⟩
  · have below := Reachability.connected_lt _ _ _ connected
    have named : d.states[o.machine.current]? = some d.states[o.machine.current] :=
      List.getElem?_eq_getElem below
    refine ⟨_, _, (Definition.stateClasses_getElem? d _ _ _).mpr ⟨named, rfl⟩, ?_⟩
    intro unreachable
    have classified := (Definition.stateClasses_getElem? d _ _ _).mpr ⟨named, unreachable⟩
    exact ((Definition.stateClass_unreachable_iff d _ _).mp classified).2 connected
  · intro trigger arguments firing after data branch completed
    have inRange' : o.machine.definition.InRange := same ▸ inRange
    exact Machine.completed_followsEdge o.machine inRange' o.builtins o.env data trigger arguments
      firing after branch completed

theorem lamp_lit_covered :
    (∃ name c, lamp.stateClasses[1]? = some (name, c) ∧ c ≠ .unreachable) :=
  (reached_covered Builtin.standard lampKnown lampText ⟨[lamp], []⟩ lamp
    (lampGlowing 1 5 (by decide) 1) lamp_parsed (List.mem_singleton_self lamp)
    (lamp_lit _ fun _ _ => trivial)).2.1

end Object

end SimBus
