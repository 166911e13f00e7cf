import SimBus.Proofs.DrawlessRuns
import SimBus.Proofs.SimulationSignals
/-!
The objects of a simulation, whatever has been done to it. Each of them runs a definition of some
program that was accepted with the interfaces and the functions of the simulation, and works with
the very same interfaces and functions.
-/

namespace SimBus

open Draws (Branch branch_bind_iff)

def Definition.Accepted (table : BuiltinTable) (known : InterfaceSet) (d : Definition) : Prop :=
  ∃ text program, Program.parse table known text = .ok program ∧ d ∈ program.definitions

structure Object.Hosted (table : BuiltinTable) (known : InterfaceSet) (o : Object) : Prop where
  sameBuiltins : o.builtins = table
  sameKnown : o.known = known
  accepted : o.definition.Accepted table known

theorem Object.SameProgram.hosted {o after : Object} {table : BuiltinTable} {known : InterfaceSet}
    (same : SameProgram o after) (hosted : o.Hosted table known) : after.Hosted table known where
  sameBuiltins := same.builtins.trans hosted.sameBuiltins
  sameKnown := same.known.trans hosted.sameKnown
  accepted := same.definition ▸ hosted.accepted

namespace Simulation

/-- A simulation with these functions and interfaces, which all its objects work with. -/
structure Hosts (table : BuiltinTable) (known : InterfaceSet) (s : Simulation) : Prop where
  sameBuiltins : s.builtins = table
  sameKnown : s.known = known
  objects : ∀ o ∈ s.objects, o.Hosted table known

variable {table : BuiltinTable} {known : InterfaceSet} {s after : Simulation}

theorem addObject_hosts (hosts : s.Hosts table known) (d : Definition)
    (accepted : d.Accepted table known) (branch : Branch (s.addObject d) after) :
    after.Hosts table known := by
  obtain ⟨rfl, rfl, objects⟩ := hosts
  rcases addObject_cases s after d branch with
    rfl | ⟨o, made, ⟨e, bus, -, rfl⟩ | ⟨registered, bus, registers, rfl⟩⟩
  · exact ⟨rfl, rfl, objects⟩
  · exact ⟨rfl, rfl, objects⟩
  · have created : o.Hosted s.builtins s.known := by
      obtain ⟨known, definition⟩ :=
        Object.reached_constant d s.known s.builtins (fun _ => True) o (.created made)
      have builtins := (Object.create_ok d s.known s.builtins o made).2.1
      exact ⟨builtins, known, definition ▸ accepted⟩
    have same := o.acts_sameProgram registered s.bus bus (.registered registers)
    refine ⟨rfl, rfl, List.forall_mem_append.mpr ⟨objects, ?_⟩⟩
    exact List.forall_mem_singleton.mpr (same.hosted created)

theorem addObjects_hosts (definitions : List Definition) (hosts : s.Hosts table known)
    (accepted : ∀ d ∈ definitions, d.Accepted table known)
    (branch : Branch (addObjects definitions s) after) : after.Hosts table known := by
  induction definitions generalizing s with
  | nil =>
      obtain rfl := (Draws.branch_pure_iff _ _).mp branch
      exact hosts
  | cons d rest ih =>
      obtain ⟨first, others⟩ := List.forall_mem_cons.mp accepted
      obtain ⟨middle, here, later⟩ := (branch_bind_iff _ _ _).mp branch
      exact ih (addObject_hosts hosts d first here) others later

theorem load_hosts (hosts : s.Hosts table known) (text : String)
    (branch : Branch (s.load text).run (.ok after)) : after.Hosts table known := by
  obtain ⟨program, accepted, placed⟩ := load_adds s after text branch
  rw [hosts.sameBuiltins, hosts.sameKnown] at accepted
  apply addObjects_hosts program.definitions hosts _ placed
  intro d member
  exact ⟨text, program, accepted, member⟩

theorem call_hosts (hosts : s.Hosts table known) (path : String) (call : Call)
    (result : Except BusError Output) (branch : Branch (s.call path call) (result, after)) :
    after.Hosts table known := by
  have objects := call_keeps (Object.Hosted table known)
    (fun o bus call result after busAfter dispatched hosted =>
      (o.dispatch_sameProgram bus call result after busAfter dispatched).hosted hosted)
    s after hosts.objects path call result branch
  rcases call_cases s after path call result branch with ⟨-, -, rfl⟩ | ⟨o, o', bus, -, -, rfl⟩
  · exact hosts
  · exact ⟨hosts.sameBuiltins, hosts.sameKnown, objects⟩

theorem tick_hosts (hosts : s.Hosts table known) (ticked : List Ticked)
    (branch : Branch s.tick (ticked, after)) : after.Hosts table known := by
  have objects := tick_keeps (Object.Hosted table known)
    (fun o bus result after busAfter ticks hosted =>
      (o.acts_sameProgram after bus busAfter (.ticked ticks)).hosted hosted)
    s after hosts.objects ticked branch
  obtain ⟨ticking, bus, -, rfl⟩ := tick_cases s after ticked branch
  exact ⟨hosts.sameBuiltins, hosts.sameKnown, objects⟩

theorem reached_hosts (s : Simulation) (reached : Reached s) : s.Hosts s.builtins s.known := by
  -- The functions and the interfaces are those of the empty simulation it came out of.
  suffices ∃ table known, s.Hosts table known by
    obtain ⟨table, known, rfl, rfl, objects⟩ := this
    exact ⟨rfl, rfl, objects⟩
  induction reached with
  | empty known table seed => exact ⟨table, known, rfl, rfl, by simp [empty]⟩
  | @loaded s after text _ branch ih =>
      obtain ⟨table, known, hosts⟩ := ih
      exact ⟨table, known, load_hosts hosts text branch⟩
  | @called s after path call result _ branch ih =>
      obtain ⟨table, known, hosts⟩ := ih
      exact ⟨table, known, call_hosts hosts path call result branch⟩
  | @ticked s after ticked _ branch ih =>
      obtain ⟨table, known, hosts⟩ := ih
      exact ⟨table, known, tick_hosts hosts ticked branch⟩
  | @reset s _ ih =>
      obtain ⟨table, known, hosts⟩ := ih
      refine ⟨table, known, hosts.sameBuiltins, hosts.sameKnown, ?_⟩
      intro x member
      obtain ⟨o, present, rfl⟩ := List.mem_map.mp member
      have same : o.SameProgram o.reset := ⟨rfl, rfl, rfl⟩
      exact same.hosted (hosts.objects o present)
  | signalsTaken _ ih | nameRefused _ _ ih =>
      obtain ⟨table, known, hosts⟩ := ih
      exact ⟨table, known, hosts.sameBuiltins, hosts.sameKnown, hosts.objects⟩
  | @shutdown s _ ih =>
      obtain ⟨table, known, hosts⟩ := ih
      exact ⟨table, known, hosts.sameBuiltins, hosts.sameKnown, by simp [shutdown]⟩

end Simulation

end SimBus
