import SimBus.Proofs.CallDelivery
import SimBus.Proofs.DecodedValues
import SimBus.Proofs.HostedObjects
import SimBus.Proofs.ResolvedMembers
import SimBus.Service
/-!
Calls that come over the line of a session. Their arguments are read as what the description of
the interface says; the object that is called looks at the description again, and a transition
that reacts looks at its parameters. All of them agree, so a call whose arguments could be read is
never rejected because of them.
-/

namespace SimBus

open Draws (Branch branch_pure_triple branch_bind_iff)

namespace Machine

variable (m : Machine) (table : BuiltinTable) (env : Environment)

/-- Why a machine rejects a trigger although its transitions take the arguments: none of them
reacts, a precondition does not hold, or evaluation fails, in a precondition or in a body. -/
inductive Rejects (trigger : Trigger) (arguments : List Value) : MachineError → Prop where
  | noTransition : m.candidates trigger = [] →
      Rejects trigger arguments (.noTransition m.stateName trigger)
  | blocked {place : Nat} {t : Transition} {locals : List (String × Value)} {error : String} :
      m.Reacts trigger arguments place t locals → Guarded table env t locals (.ok (some error)) →
      Rejects trigger arguments (.preconditionFailed error t.position.line m.stateName)
  | guardFault {place : Nat} {t : Transition} {locals : List (String × Value)} {e : EvalError} :
      m.Reacts trigger arguments place t locals → Guarded table env t locals (.error e) →
      Rejects trigger arguments (.eval e)
  | bodyFault {place : Nat} {t : Transition} {locals : List (String × Value)} {e : EvalError}
      {middle : Environment} {output : Output} :
      m.Reacts trigger arguments place t locals → Guarded table env t locals (.ok none) →
      Statement.Ends table locals t.body env (.faulted e) middle output →
      Rejects trigger arguments (.eval e)

def Binds (trigger : Trigger) (arguments : List Value) : Prop :=
  ∀ t ∈ m.definition.transitions, t.trigger = trigger →
    ∃ locals, t.bindArguments arguments = .ok locals

theorem fire_rejects (trigger : Trigger) (arguments : List Value)
    (binds : m.Binds trigger arguments) (e : MachineError) (after : Machine) (data : Environment)
    (branch : Branch (m.fire table env trigger arguments) (.error e, after, data)) :
    m.Rejects table env trigger arguments e := by
  cases fire_fires m table env trigger arguments _ after data branch with
  | noTransition none => exact .noTransition none
  | @unbound place t e candidate refused =>
      obtain ⟨placed, -, triggered⟩ := (mem_candidates_iff m trigger place t).mp candidate
      obtain ⟨locals, bound⟩ := binds t (List.mem_of_getElem? placed) triggered
      cases refused.symm.trans bound
  | guardFault reacts guarded => exact .guardFault reacts guarded
  | blocked reacts guarded => exact .blocked reacts guarded
  | bodyFault reacts guarded ends => exact .bodyFault reacts guarded ends

end Machine

/-- The error says that there is no such property, that it cannot be read or written in this way, or
why the machine rejects it. -/
def BusError.ConcernsProperty : BusError → Prop
  | unknownInterface _ | unknownProperty .. | withoutData _ | writeOnly .. | readOnly ..
  | notAssignable _ | machine _ => True
  | _ => False

namespace Object

def Mistypes (o : Object) (call : Call) (e : BusError) : Prop :=
  call.member = "Set" ∧ ∃ interface name carrier i p, call.arguments = [interface, name, carrier] ∧
    o.property (interface.text?.getD "") (name.text?.getD "") = .ok (i, p) ∧
    (unwrap carrier).ty ≠ p.ty ∧ e = .propertyType p.name p.ty (unwrap carrier).ty

variable (o after : Object) (bus busAfter : Bus) (call : Call)

theorem fire_error (trigger : Trigger) (arguments : List Value) (e : BusError)
    (branch : Branch (o.fire bus trigger arguments) (.error e, after, busAfter)) :
    ∃ fault machine env, e = .machine fault ∧
      Branch (o.machine.fire o.builtins o.env trigger arguments) (.error fault, machine, env) := by
  obtain ⟨⟨result, machine, env⟩, fired, continued⟩ := (branch_bind_iff _ _ _).mp branch
  cases result with
  | error fault =>
      obtain ⟨same, -, -⟩ := branch_pure_triple continued
      exact ⟨fault, machine, env, Except.error.inj same, fired⟩
  | ok firing => cases (branch_pure_triple continued).1

section Methods

variable (i : Interface) (m : Method)

theorem typed_callsMethod (typed : call.Typed o.known)
    (ordinary : call.interface ≠ Interface.propertiesName)
    (implemented : call.interface ∈ o.definition.interfaces) : ∃ i m, o.CallsMethod call i m := by
  obtain ⟨types, expected, inhabits⟩ := typed
  simp only [Call.inputTypes?, ordinary, ↓reduceIte, Option.map_eq_some_iff,
    Option.bind_eq_some_iff] at expected
  obtain ⟨m, ⟨i, described, found⟩, rfl⟩ := expected
  refine ⟨i, m, ordinary, ?_, found, ?_⟩
  · rw [implemented?_eq_some_iff]
    exact ⟨implemented, described⟩
  · exact (Value.inhabits_tuple call.arguments _ inhabits).2

theorem callsMethod_binds (linked : o.definition.Linked o.known) (calls : o.CallsMethod call i m) :
    o.machine.Binds (.method call.interface call.member) call.arguments := by
  intro t member triggered
  have listens := linked.listens t member
  rw [Definition.Listens, triggered] at listens
  obtain ⟨i', m', described, found, parameters⟩ := listens
  -- The transition was resolved against the method that the call is checked against.
  obtain rfl : i = i' := Option.some.inj (calls.implemented.symm.trans described)
  obtain rfl : m = m' := Option.some.inj (calls.found.symm.trans found)
  have types : call.arguments.map Value.ty = Argument.types m.inputs := by
    have typed := calls.typed
    rw [Value.ty_tuple, Method.inputType] at typed
    exact Ty.tuple.inj typed
  exact ⟨_, (t.bindArguments_ok_iff call.arguments _).mpr ⟨types.trans parameters.symm, rfl⟩⟩

theorem dispatch_rejects (linked : o.definition.Linked o.known) (calls : o.CallsMethod call i m)
    (e : BusError) (branch : Branch (o.dispatch bus call) (.error e, after, busAfter)) :
    ∃ fault, e = .machine fault ∧ o.machine.Rejects o.builtins o.env
      (.method call.interface call.member) call.arguments fault := by
  rw [dispatch_callsMethod o bus call i m calls] at branch
  obtain ⟨fault, machine, env, rfl, fired⟩ := o.fire_error after bus busAfter _ _ e branch
  have binds := o.callsMethod_binds call i m linked calls
  exact ⟨fault, rfl, o.machine.fire_rejects _ _ _ _ binds fault machine env fired⟩

end Methods

/-! Readings and writings of properties. -/

theorem property_concerns (interface name : String) (e : BusError)
    (refused : o.property interface name = .error e) : e.ConcernsProperty := by
  unfold property at refused
  split at refused
  · obtain rfl := Except.error.inj refused
    exact trivial
  · split at refused
    · obtain rfl := Except.error.inj refused
      exact trivial
    · cases refused

theorem propertyValue_concerns (p : Property) (e : BusError)
    (refused : o.propertyValue p = .error e) : e.ConcernsProperty := by
  unfold propertyValue at refused
  split at refused
  · cases refused
  · obtain rfl := Except.error.inj refused
    exact trivial

theorem getProperty_concerns (interface name : String) (e : BusError)
    (refused : o.getProperty interface name = .error e) : e.ConcernsProperty := by
  unfold getProperty at refused
  cases found : o.property interface name with
  | error fault =>
      simp only [found, bind, Except.bind] at refused
      obtain rfl := Except.error.inj refused
      exact o.property_concerns interface name fault found
  | ok property =>
      simp only [found, bind, Except.bind] at refused
      split at refused
      · cases value : o.propertyValue property.2 with
        | error fault =>
            simp only [value] at refused
            obtain rfl := Except.error.inj refused
            exact o.propertyValue_concerns property.2 fault value
        | ok v =>
            simp only [value] at refused
            cases refused
      · obtain rfl := Except.error.inj refused
        exact trivial

theorem getAllProperties_concerns (interface : String) (e : BusError)
    (refused : o.getAllProperties interface = .error e) : e.ConcernsProperty := by
  unfold getAllProperties at refused
  split at refused
  · obtain rfl := Except.error.inj refused
    exact trivial
  · cases refused

theorem assignProperty_concerns (p : Property) (value : Value) (e : BusError)
    (refused : (o.assignProperty bus p value).1 = .error e) : e.ConcernsProperty := by
  unfold assignProperty at refused
  split at refused
  · next fault without =>
      obtain rfl := Except.error.inj refused
      exact o.propertyValue_concerns p fault without
  · split at refused
    · obtain rfl := Except.error.inj refused
      exact trivial
    · cases refused

theorem setProperty_refuses (interface name : String) (value : Value) (e : BusError)
    (branch : Branch (o.setProperty bus interface name value) (.error e, after, busAfter)) :
    e.ConcernsProperty ∨ ∃ i p, o.property interface name = .ok (i, p) ∧ value.ty ≠ p.ty ∧
      e = .propertyType p.name p.ty value.ty := by
  unfold setProperty at branch
  split at branch
  · next fault missing =>
      obtain rfl := Except.error.inj (branch_pure_triple branch).1
      exact .inl (o.property_concerns interface name e missing)
  · next i p found =>
      split at branch
      · obtain rfl := Except.error.inj (branch_pure_triple branch).1
        exact .inl trivial
      · split at branch
        · next mistyped =>
            exact .inr ⟨i, p, found, mistyped, Except.error.inj (branch_pure_triple branch).1⟩
        · simp only [pure_bind] at branch
          left
          split at branch
          · obtain ⟨⟨result, o', bus'⟩, fired, acknowledged⟩ := (branch_bind_iff _ _ _).mp branch
            have refused := (branch_pure_triple acknowledged).1.symm
            obtain rfl := (except_map_error_iff result acknowledge e).mp refused
            obtain ⟨fault, -, -, rfl, -⟩ := o.fire_error o' bus bus' _ _ e fired
            exact trivial
          · have refused := (branch_pure_triple branch).1.symm
            apply o.assignProperty_concerns bus p value e
            exact (except_map_error_iff _ acknowledge e).mp refused

theorem callProperties_refuses (typed : call.Typed o.known)
    (properties : call.interface = Interface.propertiesName) (e : BusError)
    (branch : Branch (o.dispatch bus call) (.error e, after, busAfter)) :
    e.ConcernsProperty ∨ o.Mistypes call e := by
  obtain ⟨types, expected, inhabits⟩ := typed
  have checked := (checkArguments_ok_iff (.tuple types) call.arguments ()).mpr
    (Value.inhabits_tuple call.arguments types inhabits).2
  have counted := inhabits.length_eq
  simp only [Call.inputTypes?, properties, ↓reduceIte] at expected
  simp only [dispatch, properties, ↓reduceIte, callProperties] at branch
  split at expected
  · next member =>
      obtain rfl := Option.some.inj expected
      obtain ⟨interface, name, listed⟩ := List.length_eq_two.mp counted
      rw [listed] at checked branch
      simp only [member, checked] at branch
      exact .inl (o.getProperty_concerns _ _ e (branch_pure_triple branch).1.symm)
  · next member =>
      obtain rfl := Option.some.inj expected
      obtain ⟨interface, listed⟩ := List.length_eq_one_iff.mp counted
      rw [listed] at checked branch
      simp only [member, checked] at branch
      exact .inl (o.getAllProperties_concerns _ e (branch_pure_triple branch).1.symm)
  · next member =>
      obtain rfl := Option.some.inj expected
      obtain ⟨interface, name, carrier, listed⟩ := List.length_eq_three.mp counted
      rw [listed] at checked branch
      simp only [member, checked] at branch
      apply (o.setProperty_refuses after bus busAfter _ _ _ e branch).imp_right
      rintro ⟨i, p, found, mistyped, rfl⟩
      exact ⟨member, interface, name, carrier, i, p, listed, found, mistyped, rfl⟩
  · cases expected

end Object

theorem Definition.Accepted.linked {table : BuiltinTable} {known : InterfaceSet} {d : Definition}
    (accepted : d.Accepted table known) : d.Linked known := by
  obtain ⟨text, program, parsed, member⟩ := accepted
  obtain ⟨raw, ctx, resolved⟩ := Resolution.parse_resolved table known text program d parsed member
  exact Resolution.resolved_linked resolved

namespace Service

theorem requestedCall_ok (known : InterfaceSet) (params : Json) (path : String) (call : Call)
    (requested : requestedCall known params = .ok (path, call)) :
    ∃ interface member arguments, callArguments params = .ok arguments ∧
      Call.ofJson known interface member arguments = .ok call := by
  simp only [requestedCall, except_bind_ok_iff] at requested
  obtain ⟨path', -, interface, -, member, -, arguments, listed, answered⟩ := requested
  split at answered
  · next call' read =>
      obtain ⟨-, rfl⟩ := Prod.mk.inj (Except.ok.inj answered)
      exact ⟨interface, member, arguments, listed, read⟩
  · cases answered

theorem mistyped_tagged (o : Object) (params : Json) (path : String) (call : Call) (e : BusError)
    (requested : requestedCall o.known params = .ok (path, call))
    (properties : call.interface = Interface.propertiesName) (mistypes : o.Mistypes call e) :
    ∃ first second json, callArguments params = .ok [first, second, json] ∧
      Call.isTagged json = true := by
  obtain ⟨interface, member, arguments, listed, read⟩ :=
    requestedCall_ok _ params path call requested
  obtain ⟨values, inside, rfl⟩ := (except_map_ok_iff _ _ _).mp read
  obtain ⟨set, a, b, carrier, i, p, supplied, found, mistyped, -⟩ := mistypes
  simp only at properties set supplied
  subst properties set supplied
  simp only [↓reduceIte, Call.readPropertyCall] at inside
  obtain ⟨first, second, json, interface, name, v, rfl, written, same⟩ :=
    Call.readWrite_ok o.known arguments _ inside
  obtain ⟨rfl, rfl, rfl, -⟩ : a = .string interface ∧ b = .string name ∧ carrier = v ∧ True := by
    simpa using same
  refine ⟨first, second, json, listed, ?_⟩
  rcases Call.readWritten_cases o.known interface name json carrier written with
    ⟨tagged, -⟩ | ⟨i', p', inner, described, declared, bare, rfl⟩
  · exact tagged
  · -- The object looks the property up in the same description.
    obtain ⟨implemented, declared'⟩ := (Object.property_ok_iff o interface name i p).mp found
    obtain ⟨-, described'⟩ := (Object.implemented?_eq_some_iff o interface i).mp implemented
    obtain rfl := Option.some.inj (described.symm.trans described')
    obtain rfl := Option.some.inj (declared.symm.trans declared')
    exact absurd (Value.ofJson_inhabits json p'.ty inner bare).2 mistyped

/-! Sessions. -/

/-- The services that come out of a session: some lines have been handled, and the service has
been polled in between. -/
inductive Served : Service → Prop where
  | started {simulation : Simulation} (session : String) :
      simulation.Reached → Served (start simulation session)
  | handled {s after : Service} {line : String} {written : List ServiceLine} :
      Served s → Branch (s.handleLine line) (written, after) → Served after
  | polled {s after : Service} {count : Nat} {written : List ServiceLine} :
      Served s → Branch s.poll (count, written, after) → Served after

variable (s after : Service)

theorem call_reached (reached : s.simulation.Reached) (params : Json)
    (outcome : Except ServiceError Json) (branch : Branch (s.call params) (outcome, after)) :
    after.simulation.Reached := by
  unfold call at branch
  split at branch
  · obtain ⟨-, rfl⟩ := Draws.branch_pure_pair branch
    exact reached
  · obtain ⟨⟨result, simulation⟩, called, answered⟩ := (branch_bind_iff _ _ _).mp branch
    have next := reached.called called
    cases result with
    | error | ok =>
        obtain ⟨-, rfl⟩ := Draws.branch_pure_pair answered
        exact next

theorem command_reached (reached : s.simulation.Reached) (name : String) (params : Json)
    (outcome : Except ServiceError Json)
    (branch : Branch (s.command name params) (outcome, after)) : after.simulation.Reached := by
  unfold command at branch
  split at branch
  · exact call_reached s after reached params outcome branch
  · obtain ⟨⟨ticked, simulation⟩, ticks, answered⟩ := (branch_bind_iff _ _ _).mp branch
    obtain ⟨-, rfl⟩ := Draws.branch_pure_pair answered
    exact reached.ticked ticks
  · obtain ⟨-, rfl⟩ := Draws.branch_pure_pair branch
    exact reached.reset
  all_goals
    obtain ⟨-, rfl⟩ := Draws.branch_pure_pair branch
    exact reached

theorem answer_reached (reached : s.simulation.Reached) (request : Request)
    (outcome : Except ServiceError Json) (branch : Branch (s.answer request) (outcome, after)) :
    after.simulation.Reached := by
  unfold answer at branch
  split at branch
  · split at branch
    all_goals
      obtain ⟨-, rfl⟩ := Draws.branch_pure_pair branch
      exact reached
  · split at branch
    · exact command_reached s after reached request.command request.params outcome branch
    · obtain ⟨-, rfl⟩ := Draws.branch_pure_pair branch
      exact reached

theorem handleLine_reached (reached : s.simulation.Reached) (line : String)
    (written : List ServiceLine) (branch : Branch (s.handleLine line) (written, after)) :
    after.simulation.Reached := by
  unfold handleLine at branch
  split at branch
  · obtain ⟨-, rfl⟩ := Draws.branch_pure_pair branch
    exact reached
  · split at branch
    · obtain ⟨-, rfl⟩ := Draws.branch_pure_pair branch
      exact reached.signalsTaken
    · next request _ =>
        obtain ⟨⟨outcome, middle⟩, answers, answered⟩ := (branch_bind_iff _ _ _).mp branch
        obtain ⟨-, rfl⟩ := Draws.branch_pure_pair answered
        exact (answer_reached s middle reached request outcome answers).signalsTaken

theorem served_reached (served : Served s) : s.simulation.Reached := by
  induction served with
  | started session reached => exact reached
  | @handled s after line written _ branch ih =>
      exact handleLine_reached s after ih line written branch
  | @polled s after count written _ branch ih =>
      obtain ⟨⟨ticked, simulation⟩, ticks, answered⟩ := (branch_bind_iff _ _ _).mp branch
      obtain ⟨-, -, rfl⟩ := branch_pure_triple answered
      exact (ih.ticked ticks).signalsTaken

/-- What is read from JSON at a type is a well-formed value of this type. So in every session, a
call whose arguments were read passes the checks of the object that it is for: one of a method is
taken by all transitions on it, and is rejected only where none reacts, a precondition does not
hold or evaluation fails; one that reads or writes a property only for what it says about the
property, and for the type of a written value only if this came with a signature of its own. An
error that a body raises is no rejection, but an answer. -/
theorem decoded_calls_fit :
    (∀ json ty v, Value.ofJson json ty = .ok v → v.Inhabits ty) ∧
    ∀ s : Service, Served s → ∀ params path call o,
      requestedCall s.simulation.known params = .ok (path, call) →
      s.simulation.object? path = some o →
      call.Typed s.simulation.known ∧
      (call.interface ≠ Interface.propertiesName → call.interface ∈ o.definition.interfaces →
        (∃ i m, o.CallsMethod call i m) ∧
        o.machine.Binds (.method call.interface call.member) call.arguments ∧
        ∀ e after, Branch (s.simulation.call path call) (.error e, after) →
          ∃ fault, e = .machine fault ∧ o.machine.Rejects o.builtins o.env
            (.method call.interface call.member) call.arguments fault) ∧
      (call.interface = Interface.propertiesName →
        ∀ e after, Branch (s.simulation.call path call) (.error e, after) →
          e.ConcernsProperty ∨ o.Mistypes call e ∧ ∃ first second json,
            callArguments params = .ok [first, second, json] ∧ Call.isTagged json = true) := by
  refine ⟨Value.ofJson_inhabits, ?_⟩
  intro s served params path call o requested found
  obtain ⟨interface, member, arguments, -, read⟩ := requestedCall_ok _ params path call requested
  have typed := Call.ofJson_typed _ interface member arguments call read
  have hosts := s.simulation.reached_hosts (served_reached s served)
  have hosted := hosts.objects o (s.simulation.object?_some path o found).1
  have known := hosted.sameKnown
  refine ⟨typed, ?_, ?_⟩
  · intro ordinary implemented
    have linked : o.definition.Linked o.known := known ▸ hosted.accepted.linked
    obtain ⟨i, m, calls⟩ := o.typed_callsMethod call (known ▸ typed) ordinary implemented
    refine ⟨⟨i, m, calls⟩, o.callsMethod_binds call i m linked calls, ?_⟩
    intro e after branch
    obtain ⟨o', bus, dispatched⟩ := s.simulation.call_found after path call _ o found branch
    exact o.dispatch_rejects o' s.simulation.bus bus call i m linked calls e dispatched
  · intro properties e after branch
    obtain ⟨o', bus, dispatched⟩ := s.simulation.call_found after path call _ o found branch
    have refuses := o.callProperties_refuses o' s.simulation.bus bus call (known ▸ typed)
      properties e dispatched
    apply refuses.imp_right
    intro mistypes
    exact ⟨mistypes, mistyped_tagged o params path call e (known ▸ requested) properties mistypes⟩

def lightParams : Json := .object
  [("args", .array [.integer 5]), ("interface", .string "test.Lamp"), ("member", .string "Light"),
    ("path", .string "/lamp")]

def litLamp : Object :=
  { Object.lampGlowing 1 5 (Nat.le_add_right 5 250) 1 with registered := true }

def litSimulation : Simulation := { lampSimulation with objects := [litLamp] }

theorem litSimulation_reached : litSimulation.Reached := by
  have lights : Branch (lampSimulation.call "/lamp" Object.lampCall)
      (.ok [.reply Value.unit], litSimulation) := .done _
  exact lampSimulation_reached.called lights

theorem litLamp_rejects :
    requestedCall lampKnown lightParams = .ok ("/lamp", Object.lampCall) ∧
      Served (start litSimulation "session") ∧ (∃ i m, litLamp.CallsMethod Object.lampCall i m) ∧
      litLamp.machine.Rejects Builtin.standard litLamp.env (.method "test.Lamp" "Light")
        Object.lampCall.arguments (.noTransition "on" (.method "test.Lamp" "Light")) := by
  have requested : requestedCall lampKnown lightParams = .ok ("/lamp", Object.lampCall) := rfl
  have served : Served (start litSimulation "session") := .started "session" litSimulation_reached
  obtain ⟨-, method, -⟩ := decoded_calls_fit.2 _ served lightParams "/lamp" Object.lampCall litLamp
    requested rfl
  obtain ⟨calls, -, rejects⟩ := method (by decide) (by decide)
  have refused : Branch (litSimulation.call "/lamp" Object.lampCall)
      (.error (.machine (.noTransition "on" (.method "test.Lamp" "Light"))), litSimulation) :=
    .done _
  obtain ⟨fault, same, rejected⟩ := rejects _ _ refused
  obtain rfl := BusError.machine.inj same
  exact ⟨requested, served, calls, rejected⟩

end Service

end SimBus
