import SimBus.Proofs.ObjectRuns
/-!
How calls get through to the machine. Before a trigger is fired, the object
checks that the interface is implemented and has the member, that the arguments
have the right types, and that a property which is written may be written. A
call that succeeds has passed all of this, and one that passes it is handed on.
-/

namespace SimBus

open Draws (Branch branch_pure_triple branch_bind_iff)

namespace Object

/-- The call passes the checks in front of the method. -/
structure CallsMethod (o : Object) (call : Call) (i : Interface) (m : Method) : Prop where
  ordinary : call.interface ≠ Interface.propertiesName
  implemented : o.implemented? call.interface = some i
  found : i.method? call.member = some m
  typed : (Value.tuple call.arguments).ty = m.inputType

/-- The call passes the checks in front of the property, to write the value. -/
structure WritesProperty (o : Object) (call : Call) (i : Interface) (p : Property)
    (value : Value) : Prop where
  properties : call.interface = Interface.propertiesName
  set : call.member = "Set"
  supplied : (Value.tuple call.arguments).ty = .tuple [.string, .string, .variant]
  arguments : ∃ interface name carrier, call.arguments = [interface, name, carrier] ∧
    o.property (interface.text?.getD "") (name.text?.getD "") = .ok (i, p) ∧
    unwrap carrier = value
  writable : p.access.writable = true
  typed : value.ty = p.ty

theorem property_ok_iff (o : Object) (interface name : String) (i : Interface) (p : Property) :
    o.property interface name = .ok (i, p) ↔
      o.implemented? interface = some i ∧ i.property? name = some p := by
  constructor
  · intro answered
    unfold property at answered
    split at answered
    · cases answered
    · next implemented =>
        split at answered
        · cases answered
        · next found =>
            obtain ⟨rfl, rfl⟩ := Prod.mk.inj (Except.ok.inj answered)
            exact ⟨implemented, found⟩
  · rintro ⟨implemented, found⟩
    simp [property, implemented, found]

theorem implemented?_eq_some_iff (o : Object) (name : String) (i : Interface) :
    o.implemented? name = some i ↔
      name ∈ o.definition.interfaces ∧ o.known.find? name = some i := by
  simp [implemented?]

theorem checkArguments_ok_iff (expected : Ty) (arguments : List Value) (u : Unit) :
    checkArguments expected arguments = .ok u ↔ (Value.tuple arguments).ty = expected := by
  simp [checkArguments]

theorem dispatch_callsMethod (o : Object) (bus : Bus) (call : Call) (i : Interface) (m : Method)
    (calls : o.CallsMethod call i m) :
    o.dispatch bus call = o.fire bus (.method call.interface call.member) call.arguments := by
  simp [dispatch, calls.ordinary, callMethod, calls.implemented, calls.found, checkArguments,
    calls.typed]

theorem dispatch_written (o : Object) (bus : Bus) (call : Call) (i : Interface) (p : Property)
    (value : Value) (writes : o.WritesProperty call i p value)
    (reacts : o.machine.accepts (.property i.name p.name) = true) :
    o.dispatch bus call = (do
      let (result, after, bus) ← o.fire bus (.property i.name p.name) [value]
      pure (result.map acknowledge, after, bus)) := by
  obtain ⟨interface, name, carrier, listed, found, rfl⟩ := writes.arguments
  have checked := (checkArguments_ok_iff _ call.arguments ()).mpr writes.supplied
  rw [listed] at checked
  simp [dispatch, writes.properties, callProperties, writes.set, listed, checked, setProperty,
    found, writes.writable, writes.typed, reacts]

theorem dispatch_assigned (o : Object) (bus : Bus) (call : Call) (i : Interface) (p : Property)
    (value : Value) (writes : o.WritesProperty call i p value)
    (passive : o.machine.accepts (.property i.name p.name) = false) :
    o.dispatch bus call =
      let (result, after, bus) := o.assignProperty bus p value
      pure (result.map acknowledge, after, bus) := by
  obtain ⟨interface, name, carrier, listed, found, rfl⟩ := writes.arguments
  have checked := (checkArguments_ok_iff _ call.arguments ()).mpr writes.supplied
  rw [listed] at checked
  simp [dispatch, writes.properties, callProperties, writes.set, listed, checked, setProperty,
    found, writes.writable, writes.typed, passive]

inductive Succeeds (o : Object) (bus : Bus) (call : Call) : Output → Object → Bus → Prop where
  | read (payload : Value) : call.reads = true → Succeeds o bus call [.reply payload] o bus
  | called {i : Interface} {m : Method} {output : Output} {after : Object} {busAfter : Bus} :
      o.CallsMethod call i m →
      Handles o bus (.method call.interface call.member) call.arguments (.ok output) after
        busAfter →
      Succeeds o bus call output after busAfter
  | written {i : Interface} {p : Property} {value : Value} {output : Output} {after : Object}
      {busAfter : Bus} :
      o.WritesProperty call i p value →
      Handles o bus (.property i.name p.name) [value] (.ok output) after busAfter →
      Succeeds o bus call (acknowledge output) after busAfter
  | assigned {i : Interface} {p : Property} {value : Value} {env : Environment} {output : Output} :
      o.WritesProperty call i p value → o.machine.accepts (.property i.name p.name) = false →
      o.env.assign p.name value = .ok env →
      output = announcements o (o.moved o.machine.current env) →
      Succeeds o bus call (acknowledge output) (o.moved o.machine.current env)
        (bus.queue (o.sent output))

theorem callMethod_succeeds (o : Object) (bus : Bus) (call : Call) (output : Output)
    (after : Object) (busAfter : Bus) (ordinary : call.interface ≠ Interface.propertiesName)
    (branch : Branch (o.callMethod bus call) (.ok output, after, busAfter)) :
    Succeeds o bus call output after busAfter := by
  unfold callMethod at branch
  split at branch
  · cases (branch_pure_triple branch).1
  · next i implemented =>
      split at branch
      · cases (branch_pure_triple branch).1
      · next m found =>
          split at branch
          · cases (branch_pure_triple branch).1
          · next typed =>
              exact .called ⟨ordinary, implemented, found, (checkArguments_ok_iff _ _ _).mp typed⟩
                (fire_handles o bus _ _ _ after busAfter branch)

theorem written_succeeds (o : Object) (bus : Bus) (call : Call) (i : Interface) (p : Property)
    (value : Value) (output : Output) (after : Object) (busAfter : Bus)
    (writes : o.WritesProperty call i p value)
    (branch : Branch (o.dispatch bus call) (.ok output, after, busAfter)) :
    Succeeds o bus call output after busAfter := by
  cases reacts : o.machine.accepts (.property i.name p.name) with
  | true =>
      rw [dispatch_written o bus call i p value writes reacts] at branch
      obtain ⟨⟨result, o', bus'⟩, fired, continued⟩ := (branch_bind_iff _ _ _).mp branch
      obtain ⟨acknowledged, rfl, rfl⟩ := branch_pure_triple continued
      cases result with
      | error e => cases acknowledged
      | ok inner =>
          obtain rfl := Except.ok.inj acknowledged
          exact .written writes (fire_handles o bus _ _ _ _ _ fired)
  | false =>
      rw [dispatch_assigned o bus call i p value writes reacts] at branch
      rcases assignProperty_cases o bus p value with
        ⟨e, refused⟩ | ⟨env, announced, assigned, same, made⟩
      · rw [refused] at branch
        cases (branch_pure_triple branch).1
      · rw [made] at branch
        obtain ⟨acknowledged, rfl, rfl⟩ := branch_pure_triple branch
        obtain rfl := Except.ok.inj acknowledged
        exact .assigned writes reacts assigned same

theorem setProperty_succeeds (o : Object) (bus : Bus) (call : Call)
    (interface name carrier : Value) (output : Output) (after : Object) (busAfter : Bus)
    (properties : call.interface = Interface.propertiesName) (set : call.member = "Set")
    (listed : call.arguments = [interface, name, carrier])
    (supplied : (Value.tuple call.arguments).ty = .tuple [.string, .string, .variant])
    (dispatched : Branch (o.dispatch bus call) (.ok output, after, busAfter))
    (branch : Branch (o.setProperty bus (interface.text?.getD "") (name.text?.getD "")
      (unwrap carrier)) (.ok output, after, busAfter)) :
    Succeeds o bus call output after busAfter := by
  unfold setProperty at branch
  split at branch
  · cases (branch_pure_triple branch).1
  · next i p found =>
      split at branch
      · cases (branch_pure_triple branch).1
      · next writable =>
          split at branch
          · cases (branch_pure_triple branch).1
          · next typed =>
              have writes : o.WritesProperty call i p (unwrap carrier) :=
                ⟨properties, set, supplied, ⟨interface, name, carrier, listed, found, rfl⟩,
                  by simpa using writable, by simpa using typed⟩
              exact written_succeeds o bus call i p _ output after busAfter writes dispatched

theorem callProperties_succeeds (o : Object) (bus : Bus) (call : Call) (output : Output)
    (after : Object) (busAfter : Bus) (properties : call.interface = Interface.propertiesName)
    (dispatched : Branch (o.dispatch bus call) (.ok output, after, busAfter)) :
    Succeeds o bus call output after busAfter := by
  have branch := dispatched
  simp only [dispatch, properties, ↓reduceIte, callProperties] at branch
  split at branch
  · next member =>
      have reads : call.reads = true := by simp [Call.reads, properties, member]
      split at branch
      · cases (branch_pure_triple branch).1
      · obtain ⟨answered, rfl, rfl⟩ := branch_pure_triple branch
        obtain ⟨payload, rfl⟩ := getProperty_ok _ _ _ output answered.symm
        exact .read payload reads
      · cases (branch_pure_triple branch).1
  · next member =>
      have reads : call.reads = true := by simp [Call.reads, properties, member]
      split at branch
      · cases (branch_pure_triple branch).1
      · obtain ⟨answered, rfl, rfl⟩ := branch_pure_triple branch
        obtain ⟨payload, rfl⟩ := getAllProperties_ok _ _ output answered.symm
        exact .read payload reads
      · cases (branch_pure_triple branch).1
  · next set =>
      split at branch
      · cases (branch_pure_triple branch).1
      · next interface name carrier checked listed =>
          exact setProperty_succeeds o bus call interface name carrier output after busAfter
            properties set listed ((checkArguments_ok_iff _ _ _).mp checked) dispatched branch
      · cases (branch_pure_triple branch).1
  · cases (branch_pure_triple branch).1

theorem dispatch_succeeds (o : Object) (bus : Bus) (call : Call) (output : Output)
    (after : Object) (busAfter : Bus)
    (branch : Branch (o.dispatch bus call) (.ok output, after, busAfter)) :
    Succeeds o bus call output after busAfter := by
  by_cases properties : call.interface = Interface.propertiesName
  · exact callProperties_succeeds o bus call output after busAfter properties branch
  · refine callMethod_succeeds o bus call output after busAfter properties ?_
    simpa only [dispatch, properties, ↓reduceIte] using branch

/-! What operations never change. -/

theorem handles_constant (o : Object) (bus : Bus) (trigger : Trigger) (arguments : List Value)
    (result : Except BusError Output) (after : Object) (busAfter : Bus)
    (handles : Handles o bus trigger arguments result after busAfter) :
    after.known = o.known ∧ after.definition = o.definition := by
  cases handles <;> exact ⟨rfl, rfl⟩

theorem answers_constant (o : Object) (bus : Bus) (call : Call) (result : Except BusError Output)
    (after : Object) (busAfter : Bus) (answers : Answers o bus call result after busAfter) :
    after.known = o.known ∧ after.definition = o.definition := by
  cases answers with
  | refused | read | assigned => exact ⟨rfl, rfl⟩
  | called _ _ handles => exact handles_constant o bus _ _ _ after busAfter handles
  | written _ _ _ handles => exact handles_constant o bus _ _ _ after busAfter handles

theorem dispatch_constant (o : Object) (bus busAfter : Bus) (call : Call)
    (result : Except BusError Output) (after : Object)
    (branch : Branch (o.dispatch bus call) (result, after, busAfter)) :
    after.known = o.known ∧ after.definition = o.definition :=
  answers_constant o bus call result after busAfter
    (dispatch_answers o bus call result after busAfter branch)

theorem operates_constant (good : Value → Prop) (o after : Object)
    (operates : Operates good o after) :
    after.known = o.known ∧ after.definition = o.definition := by
  cases operates with
  | @call bus busAfter call result _ _ branch =>
      exact dispatch_constant o bus busAfter call result after branch
  | @tick bus busAfter result _ branch =>
      rcases tick_cases o bus result after busAfter branch with ⟨-, rfl, -⟩ | ⟨answer, -, handles⟩
      · exact ⟨rfl, rfl⟩
      · exact handles_constant o bus _ _ _ after busAfter handles
  | reset => exact ⟨rfl, rfl⟩
  | @register bus _ _ registered =>
      unfold register at registered
      split at registered
      · cases registered
      · split at registered
        · cases registered
        · split at registered
          · obtain rfl := Except.ok.inj (Prod.mk.inj registered).1
            exact ⟨rfl, rfl⟩
          · cases registered
  | unregister bus =>
      unfold unregister
      split <;> exact ⟨rfl, rfl⟩

theorem reached_constant (d : Definition) (known : InterfaceSet) (table : BuiltinTable)
    (good : Value → Prop) (o : Object) (reached : Reached d known table good o) :
    o.known = known ∧ o.definition = d := by
  induction reached with
  | created branch =>
      obtain ⟨env, -, made⟩ := (Draws.branch_run_bind_ok_iff _ _ _).mp branch
      rw [Draws.branch_run_pure_iff] at made
      obtain rfl := Except.ok.inj made
      exact ⟨rfl, rfl⟩
  | operated _ operates ih =>
      obtain ⟨known', definition'⟩ := operates_constant good _ _ operates
      exact ⟨known'.trans ih.1, definition'.trans ih.2⟩

end Object

end SimBus
