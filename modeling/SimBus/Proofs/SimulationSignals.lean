import SimBus.Proofs.BusFrame
import SimBus.Proofs.SimulationRuns
/-!
The signals of a simulation. What its objects answer to a call or a tick tells which
signals go out and in which order, and these are put behind those that wait.
-/

namespace SimBus

open Draws (Branch branch_bind_iff)

/-- The signals of an answer as they go out from a path. A refusal sends none. -/
def Emission.answered (path : String) : Except BusError Output → List Emission
  | .ok output => output.signals.map fun s => ⟨path, s.1, s.2.1, s.2.2⟩
  | .error _ => []

theorem Object.emitted_registered (o : Object) (registered : o.registered = true)
    (result : Except BusError Output) : o.emitted result = Emission.answered o.path result := by
  cases result with
  | error e => rfl
  | ok output => simp [Object.emitted, Object.sent, Emission.answered, registered]

namespace Simulation

def emissions (log : List Ticked) : List Emission :=
  log.flatMap fun entry => Emission.answered entry.1 entry.2

@[simp] theorem emissions_nil : emissions [] = [] := rfl

@[simp] theorem emissions_cons (entry : Ticked) (log : List Ticked) :
    emissions (entry :: log) = Emission.answered entry.1 entry.2 ++ emissions log :=
  List.flatMap_cons

@[simp] theorem emissions_append (first second : List Ticked) :
    emissions (first ++ second) = emissions first ++ emissions second :=
  List.flatMap_append

def Hosting (s : Simulation) : Prop := ∀ o ∈ s.objects, o.registered = true

theorem reached_hosting (s : Simulation) (reached : Reached s) : s.Hosting :=
  (reached_settled s reached).registered

theorem mem_replace (object x : Object) (objects : List Object)
    (member : x ∈ replace object objects) :
    x = object ∨ x ∈ objects := by
  induction objects with
  | nil => cases member
  | cons other rest ih =>
      unfold replace at member
      split at member
      · exact (List.mem_cons.mp member).imp_right (List.mem_cons_of_mem other)
      · rcases List.mem_cons.mp member with rfl | later
        · exact .inr List.mem_cons_self
        · exact (ih later).imp_right (List.mem_cons_of_mem other)

/-- What a call of one object keeps is kept for all of them. -/
theorem call_keeps (holds : Object → Prop) (keeps : ∀ (o : Object) bus call result after busAfter,
      Branch (o.dispatch bus call) (result, after, busAfter) → holds o → holds after)
    (s after : Simulation) (all : ∀ o ∈ s.objects, holds o) (path : String) (call : Call)
    (result : Except BusError Output) (branch : Branch (s.call path call) (result, after)) :
    ∀ o ∈ after.objects, holds o := by
  rcases call_cases s after path call result branch with
    ⟨-, -, rfl⟩ | ⟨o, o', bus, found, dispatched, rfl⟩
  · exact all
  · intro x hosted
    rcases mem_replace o' x s.objects hosted with rfl | before
    · exact keeps o s.bus call result x bus dispatched (all o (object?_some s path o found).1)
    · exact all x before

theorem tickAll_keeps (holds : Object → Prop) (keeps : ∀ (o : Object) bus result after busAfter,
      Branch (o.tick bus) (result, after, busAfter) → holds o → holds after)
    (objects ticking : List Object) (all : ∀ o ∈ objects, holds o) (ticked : List Ticked)
    (bus busAfter : Bus) (branch : Branch (tickAll objects bus) (ticked, ticking, busAfter)) :
    ∀ o ∈ ticking, holds o := by
  induction objects generalizing ticking ticked bus busAfter with
  | nil =>
      obtain ⟨-, rfl, -⟩ := Draws.branch_pure_triple branch
      exact all
  | cons o rest ih =>
      obtain ⟨here, later⟩ := List.forall_mem_cons.mp all
      obtain ⟨result, after, middle, tickedRest, tickingRest, ticks, ticksRest, -, rfl⟩ :=
        tickAll_cons o rest ticking ticked bus busAfter branch
      exact List.forall_mem_cons.mpr ⟨keeps o bus result after middle ticks here,
        ih tickingRest later tickedRest middle busAfter ticksRest⟩

theorem tick_keeps (holds : Object → Prop) (keeps : ∀ (o : Object) bus result after busAfter,
      Branch (o.tick bus) (result, after, busAfter) → holds o → holds after)
    (s after : Simulation) (all : ∀ o ∈ s.objects, holds o) (ticked : List Ticked)
    (branch : Branch s.tick (ticked, after)) : ∀ o ∈ after.objects, holds o := by
  obtain ⟨objects, bus, ticks, rfl⟩ := tick_cases s after ticked branch
  exact tickAll_keeps holds keeps s.objects objects all ticked s.bus bus ticks

theorem call_hosting (s after : Simulation) (hosting : s.Hosting) (path : String) (call : Call)
    (result : Except BusError Output) (branch : Branch (s.call path call) (result, after)) :
    after.Hosting :=
  call_keeps (·.registered = true)
    (fun o bus call result after busAfter dispatched registered =>
      (o.dispatch_sameClaims bus call result after busAfter dispatched).1.registered.trans
        registered)
    s after hosting path call result branch

theorem tick_hosting (s after : Simulation) (hosting : s.Hosting) (ticked : List Ticked)
    (branch : Branch s.tick (ticked, after)) : after.Hosting :=
  tick_keeps (·.registered = true)
    (fun o bus result after busAfter ticks registered =>
      (o.tick_sameClaims bus result after busAfter ticks).1.registered.trans registered)
    s after hosting ticked branch

theorem call_emits (s after : Simulation) (hosting : s.Hosting) (path : String) (call : Call)
    (result : Except BusError Output) (branch : Branch (s.call path call) (result, after)) :
    after.bus = s.bus.queue (emissions [(path, result)]) := by
  rcases call_cases s after path call result branch with
    ⟨-, rfl, rfl⟩ | ⟨o, o', bus, found, dispatched, rfl⟩
  · exact after.bus.queue_nil.symm
  · obtain ⟨member, rfl⟩ := object?_some s path o found
    simpa [o.emitted_registered (hosting o member)] using
      o.dispatch_emits s.bus call result o' bus dispatched

theorem tickAll_emits (objects ticking : List Object)
    (registered : ∀ o ∈ objects, o.registered = true) (ticked : List Ticked) (bus busAfter : Bus)
    (branch : Branch (tickAll objects bus) (ticked, ticking, busAfter)) :
    busAfter = bus.queue (emissions ticked) := by
  induction objects generalizing ticking ticked bus busAfter with
  | nil =>
      obtain ⟨rfl, rfl, rfl⟩ := Draws.branch_pure_triple branch
      exact busAfter.queue_nil.symm
  | cons o rest ih =>
      obtain ⟨here, later⟩ := List.forall_mem_cons.mp registered
      obtain ⟨result, after, middle, tickedRest, tickingRest, ticks, ticksRest, rfl, rfl⟩ :=
        tickAll_cons o rest ticking ticked bus busAfter branch
      have first := o.tick_emits bus result after middle ticks
      have rest := ih tickingRest later tickedRest middle busAfter ticksRest
      cases result with
      | none => rw [rest, first, Option.elim_none, Bus.queue_nil, Option.elim_none]
      | some result =>
          -- The answer is listed under the path of the object afterwards.
          have samePath : after.path = o.path := congrArg Definition.path
            (o.tick_sameClaims bus (some result) after middle ticks).1.definition
          rw [Option.elim_some, o.emitted_registered here, ← samePath] at first
          rw [rest, first, Bus.queue_queue, Option.elim_some, emissions_cons]

theorem tick_emits (s after : Simulation) (hosting : s.Hosting) (ticked : List Ticked)
    (branch : Branch s.tick (ticked, after)) : after.bus = s.bus.queue (emissions ticked) := by
  obtain ⟨objects, bus, ticks, rfl⟩ := tick_cases s after ticked branch
  exact tickAll_emits s.objects objects hosting ticked s.bus bus ticks

theorem reset_hosting (s : Simulation) (hosting : s.Hosting) : s.reset.Hosting := by
  intro x member
  obtain ⟨o, hosted, rfl⟩ := List.mem_map.mp member
  exact hosting o hosted

end Simulation

end SimBus
