import SimBus.Proofs.DrawlessRuns
import SimBus.Proofs.ExactWarnings
/-!
Warnings tell the truth. A method that was warned about is refused whenever it is
called, and a transition that was warned about may be replaced by any other: no
operation on the object notices.
-/

namespace SimBus

open Draws (Branch)

namespace Definition

/-- What stands in place of a transition: anything with the same trigger, if this is a
property that cannot be written, or else the transition itself. -/
def substitute (d : Definition) (known : InterfaceSet) (other : Transition → Transition)
    (t : Transition) : Transition :=
  if d.isReadOnly known t.trigger then { other t with trigger := t.trigger } else t

def replaceIdle (d : Definition) (known : InterfaceSet) (other : Transition → Transition) :
    Definition :=
  { d with transitions := d.transitions.map (d.substitute known other) }

variable (d : Definition) (known : InterfaceSet) (other : Transition → Transition)

theorem substitute_trigger (t : Transition) : (d.substitute known other t).trigger = t.trigger := by
  unfold substitute
  split <;> rfl

theorem substitute_of_triggered (t : Transition) (trigger : Trigger)
    (possible : d.isReadOnly known trigger = false) (triggered : t.trigger = trigger) :
    d.substitute known other t = t := by
  simp [substitute, triggered, possible]

end Definition

namespace Machine

def replaceIdle (m : Machine) (known : InterfaceSet) (other : Transition → Transition) : Machine :=
  { m with definition := m.definition.replaceIdle known other }

variable (m : Machine) (known : InterfaceSet) (other : Transition → Transition)

theorem reacts_substitute (trigger : Trigger)
    (possible : m.definition.isReadOnly known trigger = false) (t : Transition) :
    m.reacts trigger (m.definition.substitute known other t) = m.reacts trigger t := by
  by_cases triggered : t.trigger = trigger
  · rw [m.definition.substitute_of_triggered known other t trigger possible triggered]
  · have apart : (t.trigger == trigger) = false := by simpa using triggered
    simp [reacts, m.definition.substitute_trigger, apart]

theorem candidates_replaceIdle (trigger : Trigger)
    (possible : m.definition.isReadOnly known trigger = false) :
    (m.replaceIdle known other).candidates trigger = m.candidates trigger := by
  have filtered : ((m.replaceIdle known other).definition.transitions.zipIdx.filter fun entry =>
        (m.replaceIdle known other).reacts trigger entry.1) =
      (m.definition.transitions.zipIdx.filter fun entry => m.reacts trigger entry.1).map
        (Prod.map (m.definition.substitute known other) id) := by
    simp only [replaceIdle, Definition.replaceIdle, List.zipIdx_map, List.filter_map]
    refine congrArg _ (List.filter_congr fun entry _ => ?_)
    exact m.reacts_substitute known other trigger possible entry.1
  rw [candidates, filtered, List.map_map, candidates]
  apply List.map_congr_left
  intro entry kept
  -- Only transitions with this trigger are kept, and those were not replaced.
  have triggered : entry.1.trigger = trigger := by
    have matched := (List.mem_filter.mp kept).2
    simp only [reacts, Bool.and_eq_true, beq_iff_eq] at matched
    exact matched.2
  simp [m.definition.substitute_of_triggered known other entry.1 trigger possible triggered]

theorem accepts_replaceIdle (trigger : Trigger)
    (possible : m.definition.isReadOnly known trigger = false) :
    (m.replaceIdle known other).accepts trigger = m.accepts trigger := by
  rw [accepts, replaceIdle, Definition.replaceIdle, List.any_map]
  exact congrArg _ (funext (m.reacts_substitute known other trigger possible))

def follow (known : InterfaceSet) (other : Transition → Transition)
    (fired : Except MachineError Firing × Machine × Environment) :
    Except MachineError Firing × Machine × Environment :=
  (fired.1, fired.2.1.replaceIdle known other, fired.2.2)

theorem execute_replaceIdle (table : BuiltinTable) (env : Environment)
    (locals : List (String × Value)) (place : Nat) (t : Transition) :
    (m.replaceIdle known other).execute table env locals place t =
      follow known other <$> m.execute table env locals place t := by
  unfold execute
  simp only [map_bind]
  refine congrArg _ (funext fun ended => ?_)
  obtain ⟨ending, after, output⟩ := ended
  cases ending <;> rfl

theorem attempt_replaceIdle (table : BuiltinTable) (env : Environment) (arguments : List Value)
    (left : List (Nat × Transition)) (failure : Option (String × Nat)) :
    (m.replaceIdle known other).attempt table env arguments left failure =
      follow known other <$> m.attempt table env arguments left failure := by
  induction left generalizing failure with
  | nil => rfl
  | cons entry rest ih =>
      obtain ⟨place, t⟩ := entry
      simp only [attempt]
      cases t.bindArguments arguments with
      | error e => rfl
      | ok locals =>
          simp only [map_bind]
          refine congrArg _ (funext fun outcome => ?_)
          rcases outcome with e | (_ | error)
          · rfl
          · exact m.execute_replaceIdle known other table env locals place t
          · exact ih _

theorem fire_replaceIdle (table : BuiltinTable) (env : Environment) (trigger : Trigger)
    (arguments : List Value) (possible : m.definition.isReadOnly known trigger = false) :
    (m.replaceIdle known other).fire table env trigger arguments =
      follow known other <$> m.fire table env trigger arguments := by
  simp only [fire, m.candidates_replaceIdle known other trigger possible]
  cases m.candidates trigger with
  | nil => rfl
  | cons first rest =>
      simp only [map_bind]
      exact congrArg _ (funext fun order =>
        m.attempt_replaceIdle known other table env arguments order none)

end Machine

namespace Object

def replaceIdle (o : Object) (other : Transition → Transition) : Object :=
  { o with machine := o.machine.replaceIdle o.known other }

def follow {α : Type} (other : Transition → Transition) (reply : α × Object × Bus) :
    α × Object × Bus :=
  (reply.1, reply.2.1.replaceIdle other, reply.2.2)

variable (o : Object) (other : Transition → Transition)

theorem fire_replaceIdle (bus : Bus) (trigger : Trigger) (arguments : List Value)
    (possible : o.definition.isReadOnly o.known trigger = false) :
    (o.replaceIdle other).fire bus trigger arguments =
      follow other <$> o.fire bus trigger arguments := by
  have fired := o.machine.fire_replaceIdle o.known other o.builtins o.env trigger arguments possible
  simp only [fire, replaceIdle, fired, bind_map_left, map_bind]
  refine congrArg _ (funext fun outcome => ?_)
  obtain ⟨result, machine, env⟩ := outcome
  cases result <;> rfl

theorem callMethod_replaceIdle (bus : Bus) (call : Call) :
    (o.replaceIdle other).callMethod bus call = follow other <$> o.callMethod bus call := by
  have same :
      (o.replaceIdle other).implemented? call.interface = o.implemented? call.interface := rfl
  simp only [callMethod, same]
  split
  · rfl
  · split
    · rfl
    · split
      · rfl
      · exact o.fire_replaceIdle other bus _ _ rfl

theorem isReadOnly_of_property (interface name : String) (i : Interface) (p : Property)
    (found : o.property interface name = .ok (i, p)) (writable : p.access.writable = true) :
    o.definition.isReadOnly o.known (.property i.name p.name) = false := by
  obtain ⟨implemented, here⟩ := (property_ok_iff o interface name i p).mp found
  obtain rfl := i.property?_name name p here
  have lookup : o.definition.interface? o.known interface = some i := implemented
  obtain rfl := o.known.find?_name interface i ((implemented?_eq_some_iff o _ i).mp implemented).2
  simp [Definition.isReadOnly, lookup, here, writable]

theorem assignProperty_replaceIdle (bus : Bus) (p : Property) (value : Value) :
    (o.replaceIdle other).assignProperty bus p value =
      follow other (o.assignProperty bus p value) := by
  have same : (o.replaceIdle other).propertyValue p = o.propertyValue p := rfl
  simp only [assignProperty, same]
  split
  · rfl
  · simp only [replaceIdle]
    split <;> rfl

theorem setProperty_replaceIdle (bus : Bus) (interface name : String) (value : Value) :
    (o.replaceIdle other).setProperty bus interface name value =
      follow other <$> o.setProperty bus interface name value := by
  have same : (o.replaceIdle other).property interface name = o.property interface name := rfl
  simp only [setProperty, same]
  split
  · rfl
  · next i p found =>
      split
      · rfl
      · next writable =>
          split
          · rfl
          · have possible :=
              o.isReadOnly_of_property interface name i p found (by simpa using writable)
            have accepts : (o.replaceIdle other).machine.accepts (.property i.name p.name) =
                o.machine.accepts (.property i.name p.name) :=
              o.machine.accepts_replaceIdle o.known other _ possible
            simp only [accepts]
            split
            · rw [o.fire_replaceIdle other bus _ _ possible, bind_map_left, map_bind]
              rfl
            · simp only [assignProperty_replaceIdle, pure_bind, map_pure]
              rfl

theorem dispatch_replaceIdle (bus : Bus) (call : Call) :
    (o.replaceIdle other).dispatch bus call = follow other <$> o.dispatch bus call := by
  unfold dispatch
  split
  · unfold callProperties
    dsimp only
    split
    · split
      · rfl
      · rfl
      · rfl
    · split
      · rfl
      · rfl
      · rfl
    · split
      · rfl
      · exact o.setProperty_replaceIdle other bus _ _ _
      · rfl
    · rfl
  · exact o.callMethod_replaceIdle other bus call

theorem tick_replaceIdle (bus : Bus) :
    (o.replaceIdle other).tick bus = follow other <$> o.tick bus := by
  have accepts : (o.replaceIdle other).machine.accepts .arbitrary = o.machine.accepts .arbitrary :=
    o.machine.accepts_replaceIdle o.known other .arbitrary rfl
  unfold tick
  rw [accepts]
  split
  · rw [o.fire_replaceIdle other bus .arbitrary [] rfl, bind_map_left, map_bind]
    rfl
  · rfl

theorem register_replaceIdle (bus : Bus) :
    (o.replaceIdle other).register bus =
      ((o.register bus).1.map fun after => after.replaceIdle other, (o.register bus).2) := by
  have registered : (o.replaceIdle other).registered = o.registered := rfl
  have interfaces : (o.replaceIdle other).definition.interfaces = o.definition.interfaces := rfl
  have names : (o.replaceIdle other).definition.names = o.definition.names := rfl
  have path : (o.replaceIdle other).path = o.path := rfl
  simp only [register, registered, interfaces, names, path]
  split
  · rfl
  · split
    · rfl
    · split <;> rfl

theorem attemptRegistration_replaceIdle (bus : Bus) :
    (o.replaceIdle other).attemptRegistration bus = follow other (o.attemptRegistration bus) := by
  simp only [attemptRegistration, o.register_replaceIdle other bus]
  rcases o.register bus with ⟨_ | _, _⟩ <;> rfl

theorem unregister_replaceIdle (bus : Bus) :
    (o.replaceIdle other).unregister bus =
      ((o.unregister bus).1.replaceIdle other, (o.unregister bus).2) := by
  have registered : (o.replaceIdle other).registered = o.registered := rfl
  simp only [unregister, registered]
  split <;> rfl

theorem operate_replaceIdle (bus : Bus) (operation : Operation) :
    (o.replaceIdle other).operate bus operation = follow other <$> o.operate bus operation := by
  cases operation with
  | call call =>
      simp only [operate, o.dispatch_replaceIdle other bus call, bind_map_left, map_bind]
      rfl
  | tick =>
      simp only [operate, o.tick_replaceIdle other bus, bind_map_left, map_bind]
      rfl
  | reset => rfl
  | register =>
      simp only [operate, map_pure, o.attemptRegistration_replaceIdle other bus]
      rfl
  | unregister =>
      simp only [operate, map_pure, o.unregister_replaceIdle other bus]
      rfl

/-- A history of operations on an object: what each of them answers, and the object and the bus
that it leaves. -/
def play : List Operation → Object → Bus → Draws (List (SimBus.Outcome × Object × Bus))
  | [], _, _ => pure []
  | operation :: rest, o, bus => do
      let (outcome, after, bus) ← o.operate bus operation
      let later ← play rest after bus
      pure ((outcome, after, bus) :: later)

/-- Whatever stands in place of the transitions on properties that cannot be written, every
history of operations is the same, with the replacements in the objects. -/
theorem play_replaceIdle (operations : List Operation) (o : Object) (bus : Bus) :
    play operations (o.replaceIdle other) bus =
      List.map (follow other) <$> play operations o bus := by
  induction operations generalizing o bus with
  | nil => rfl
  | cons operation rest ih =>
      simp only [play, o.operate_replaceIdle other bus operation, bind_map_left, map_bind]
      refine congrArg _ (funext fun operated => ?_)
      obtain ⟨outcome, after, bus'⟩ := operated
      simp only [follow, ih, bind_map_left, map_pure]
      rfl

theorem dispatch_unhandled (bus : Bus) (call : Call)
    (ordinary : call.interface ≠ Interface.propertiesName)
    (unhandled : ∀ t ∈ o.definition.transitions, t.trigger ≠ .method call.interface call.member) :
    ∃ e, o.dispatch bus call = pure (.error e, o, bus) := by
  have none : o.machine.candidates (.method call.interface call.member) = [] := by
    refine List.eq_nil_iff_forall_not_mem.mpr fun ⟨place, t⟩ candidate => ?_
    obtain ⟨placed, -, triggered⟩ := (Machine.mem_candidates_iff _ _ place t).mp candidate
    exact unhandled t (List.mem_of_getElem? placed) triggered
  rw [dispatch, if_neg ordinary]
  unfold callMethod
  split
  · exact ⟨_, rfl⟩
  · split
    · exact ⟨_, rfl⟩
    · split
      · exact ⟨_, rfl⟩
      · refine ⟨.machine
          (.noTransition o.machine.stateName (.method call.interface call.member)), ?_⟩
        simp [fire, Machine.fire, none]

end Object

namespace Definition

/-- What the warnings say comes true in every run: the methods are refused, and what stands in
the transitions makes no difference. -/
structure Truthful (table : BuiltinTable) (known : InterfaceSet) (d : Definition)
    (warnings : List Warning) : Prop where
  refused : ∀ position interface method,
    ⟨d.path, position, .unhandledMethod interface method⟩ ∈ warnings →
      interface ≠ Interface.propertiesName →
        ∀ o, Object.Reached d known table (fun _ => True) o → ∀ bus (call : Call),
          call.interface = interface → call.member = method →
            ∃ e, o.dispatch bus call = pure (.error e, o, bus)
  unnoticed : ∀ o, Object.Reached d known table (fun _ => True) o → ∀ other operations bus,
    Object.play operations (o.replaceIdle other) bus =
      List.map (Object.follow other) <$> Object.play operations o bus

theorem warned_truthful (table : BuiltinTable) (known : InterfaceSet) (rawObject : Surface.Object)
    (d : Definition) (warnings : List Warning) (warned : d.Warned known rawObject warnings) :
    d.Truthful table known warnings where
  refused := by
    rintro position _ _ told ordinary o reached bus call rfl rfl
    obtain ⟨-, definition⟩ := Object.reached_constant d known table _ o reached
    obtain ⟨-, -, unhandled⟩ := (warned.unhandled _ _ _).mp told
    exact o.dispatch_unhandled bus call ordinary (definition ▸ unhandled)
  unnoticed := fun o _ other operations bus => Object.play_replaceIdle other operations o bus

end Definition

/-- The warnings of a program that was read are exactly those that its objects call for, and
all of them tell the truth. -/
theorem Program.warnings_exact (table : BuiltinTable) (known : InterfaceSet) (text : String)
    (program : Program) (accepted : Program.parse table known text = .ok program) :
    ∃ raws, Surface.parse text = .ok raws ∧
      Resolution.Reported
        (fun raw d own => d.Warned known raw own ∧ d.Truthful table known own)
        raws program.definitions program.warnings := by
  obtain ⟨raws, read, reported⟩ := Resolution.parse_reported table known text program accepted
  refine ⟨raws, read, reported.imp fun raw d own report => ?_⟩
  have warned := Resolution.report_warned report
  exact ⟨warned, Definition.warned_truthful table known raw d own warned⟩

/-- A gate that tells back whether it is to open wide. Data of the same name is never used, it
cannot be closed, and it does not notice when it is barred. -/
def gateText : String :=
  "object at /gate implements test.Gate " ++ braced
    ("data " ++ braced "wide : b = false;" ++ "states " ++ braced "shut;" ++
      "transition from shut to shut on method Open " ++ braced "reply(wide);" ++
      "transition from shut to shut on property barred " ++ braced "throw test.Alarm;")

def gateKnown : InterfaceSet :=
  ⟨[⟨"test.Gate",
    [⟨"Open", [⟨some "wide", .bool⟩], [⟨none, .bool⟩]⟩, ⟨"Close", [], []⟩], [],
    [⟨"barred", .bool, .read⟩]⟩]⟩

def gate : Definition where
  path := "/gate"
  names := []
  interfaces := ["test.Gate"]
  data := [⟨"wide", .bool, .literal (.bool false), ⟨1, 47⟩⟩]
  states := ["shut"]
  transitions :=
    [⟨0, 0, .method "test.Gate" "Open", [("wide", .bool)], [],
        [.reply (.tuple [.var "wide" .bool])], ⟨1, 82⟩⟩,
      ⟨0, 0, .property "test.Gate" "barred", [("value", .bool)], [], [.throw "test.Alarm" none],
        ⟨1, 142⟩⟩]
  position := ⟨1, 1⟩

def gateWarnings : List Warning :=
  [⟨"/gate", ⟨1, 174⟩, .neverFires "barred"⟩, ⟨"/gate", ⟨1, 47⟩, .unusedData "wide"⟩,
    ⟨"/gate", ⟨1, 1⟩, .unhandledMethod "test.Gate" "Close"⟩]

set_option maxRecDepth 100000 in
theorem gate_parsed :
    Program.parse Builtin.standard gateKnown gateText = .ok ⟨[gate], gateWarnings⟩ := by
  rw [Program.parse_ofRead _ _ _ ?cs ?raw ?after ?chars ?reads]
  case chars =>
    unfold gateText braced
    simp only [String.toList_append]
    repeat rewrite [String.toList_ofList]
    rfl
  case reads =>
    cbv
    rfl
  rfl

theorem gate_warned :
    Program.parse Builtin.standard gateKnown gateText = .ok ⟨[gate], gateWarnings⟩ ∧
      ∃ raws, Surface.parse gateText = .ok raws ∧
        Resolution.Reported
          (fun raw d own => d.Warned gateKnown raw own ∧ d.Truthful Builtin.standard gateKnown own)
          raws [gate] gateWarnings :=
  ⟨gate_parsed, Program.warnings_exact _ _ _ _ gate_parsed⟩

end SimBus
