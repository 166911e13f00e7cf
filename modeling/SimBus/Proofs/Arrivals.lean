import SimBus.Proofs.CallDelivery
import SimBus.Proofs.CertainSteps
import SimBus.Proofs.ResolvedMembers
import SimBus.Proofs.TransactionalCalls
/-!
Triggers that calls can deliver. Calls of `org.freedesktop.DBus.Properties` are
answered by the object itself, so they never fire the methods of that interface,
and a property that may not be written is never written. All other triggers of
an accepted definition arrive with some call, and no call moves an object along
a transition whose trigger cannot arrive.
-/

namespace SimBus

open Draws (Branch branch_pure_triple branch_bind_iff)
open Statement (Ends Executes)

def Trigger.arrives (known : InterfaceSet) : Trigger → Bool
  | .method interface _ => interface != Interface.propertiesName
  | .property interface name =>
      ((known.find? interface).bind (·.property? name)).any (·.access.writable)
  | .arbitrary => false

namespace Definition

/-- The definition without the transitions whose trigger cannot arrive. -/
def arriving (d : Definition) (known : InterfaceSet) : Definition :=
  { d with transitions := d.transitions.filter (·.trigger.arrives known) }

theorem mem_arriving_iff (d : Definition) (known : InterfaceSet) (t : Transition) :
    t ∈ (d.arriving known).transitions ↔ t ∈ d.transitions ∧ t.trigger.arrives known = true :=
  List.mem_filter

theorem arriving_isCertain (d : Definition) (known : InterfaceSet) (t : Transition)
    (arrives : t.trigger.arrives known = true) :
    (d.arriving known).isCertain t = d.isCertain t := by
  have rivals : (d.arriving known).isContested t = d.isContested t := by
    simp only [isContested, arriving, List.filter_filter]
    congr 3
    refine List.filter_congr fun other _ => ?_
    cases same : other.trigger == t.trigger with
    | false => simp
    | true => simp [beq_iff_eq.mp same, arrives]
  rw [isCertain, isCertain, rivals]

end Definition

namespace Ty

mutual
def sample : Ty → Value
  | bool => .bool false
  | int kind => .int kind ⟨0, by cases kind <;> decide, by cases kind <;> decide⟩
  | double => .double 0
  | string => .string ""
  | objectPath => .objectPath "/"
  | variant => .variant (.bool false)
  | array element => .array element []
  | tuple members => .tuple (samples members)
  | dict key value => .dict key value []

def samples : List Ty → List Value
  | [] => []
  | ty :: rest => sample ty :: samples rest
end

mutual
theorem sample_ty (ty : Ty) : ty.sample.ty = ty := by
  match ty with
  | bool | int _ | double | string | objectPath | variant | array _ | dict _ _ => rfl
  | tuple members => rw [sample, Value.ty_tuple, samples_ty members]

theorem samples_ty (types : List Ty) : (samples types).map Value.ty = types := by
  match types with
  | [] => rfl
  | ty :: rest => rw [samples, List.map_cons, sample_ty ty, samples_ty rest]
end

end Ty

def Call.Addresses (d : Definition) (call : Call) : Prop :=
  call.interface ∈ d.interfaces ∧ call.interface ≠ Interface.propertiesName ∨
    call.interface = Interface.propertiesName ∧ call.member = "Set"

namespace Object

/-- The call stands for the trigger, and the object hands it on with the arguments. -/
inductive Delivers (o : Object) (call : Call) : Trigger → List Value → Prop where
  | method {i : Interface} {m : Method} : o.CallsMethod call i m →
      Delivers o call (.method call.interface call.member) call.arguments
  | write {i : Interface} {p : Property} {value : Value} : o.WritesProperty call i p value →
      Delivers o call (.property i.name p.name) [value]

theorem writes_found (o : Object) (call : Call) (i : Interface) (p : Property) (value : Value)
    (writes : o.WritesProperty call i p value) :
    o.known.find? i.name = some i ∧ i.property? p.name = some p := by
  obtain ⟨interface, name, _, -, found, -⟩ := writes.arguments
  obtain ⟨implemented, listed⟩ := (property_ok_iff o _ _ i p).mp found
  obtain ⟨-, described⟩ := (implemented?_eq_some_iff o _ i).mp implemented
  exact ⟨o.known.find?_name _ i described ▸ described, i.property?_name _ p listed ▸ listed⟩

theorem delivers_arrives (o : Object) (call : Call) (trigger : Trigger) (arguments : List Value)
    (delivers : o.Delivers call trigger arguments) : trigger.arrives o.known = true := by
  cases delivers with
  | method calls => simpa [Trigger.arrives] using calls.ordinary
  | @write i p value writes =>
      obtain ⟨described, listed⟩ := writes_found o call i p value writes
      simp [Trigger.arrives, described, listed, writes.writable]

theorem dispatch_delivers (o : Object) (bus busAfter : Bus) (call : Call) (trigger : Trigger)
    (arguments : List Value) (result : Except BusError Output) (after : Object)
    (delivers : o.Delivers call trigger arguments) (reacts : o.machine.accepts trigger = true)
    (branch : Branch (o.dispatch bus call) (result, after, busAfter)) :
    ∃ inner, Branch (o.fire bus trigger arguments) (inner, after, busAfter) ∧
      (result = inner ∨ result = inner.map acknowledge) := by
  cases delivers with
  | @method i m calls =>
      rw [dispatch_callsMethod o bus call i m calls] at branch
      exact ⟨result, branch, .inl rfl⟩
  | @write i p value writes =>
      rw [dispatch_written o bus call i p value writes reacts] at branch
      obtain ⟨⟨inner, o', bus'⟩, fired, continued⟩ := (branch_bind_iff _ _ _).mp branch
      obtain ⟨rfl, rfl, rfl⟩ := branch_pure_triple continued
      exact ⟨inner, fired, .inr rfl⟩

def sampleCall (interface name : String) (m : Method) : Call :=
  ⟨interface, name, Ty.samples (Argument.types m.inputs)⟩

theorem sampleCall_callsMethod (o : Object) (interface name : String) (i : Interface) (m : Method)
    (ordinary : interface ≠ Interface.propertiesName)
    (implemented : o.implemented? interface = some i) (found : i.method? name = some m) :
    o.CallsMethod (sampleCall interface name m) i m := by
  refine ⟨ordinary, implemented, found, ?_⟩
  rw [sampleCall, Value.ty_tuple, Ty.samples_ty, Method.inputType]

def sampleWrite (i : Interface) (p : Property) : Call :=
  ⟨Interface.propertiesName, "Set", [.string i.name, .string p.name, .variant p.ty.sample]⟩

theorem sampleWrite_writesProperty (o : Object) (i : Interface) (p : Property)
    (implemented : o.implemented? i.name = some i) (found : i.property? p.name = some p)
    (writable : p.access.writable = true) : o.WritesProperty (sampleWrite i p) i p p.ty.sample where
  properties := rfl
  set := rfl
  supplied := rfl
  arguments := ⟨_, _, _, rfl, (property_ok_iff o _ _ i p).mpr ⟨implemented, found⟩, rfl⟩
  writable := writable
  typed := Ty.sample_ty p.ty

theorem arrives_delivered (d : Definition) (known : InterfaceSet) (linked : d.Linked known)
    (t : Transition) (member : t ∈ d.transitions) (arrives : t.trigger.arrives known = true) :
    ∃ call arguments, call.Addresses d ∧ arguments.map Value.ty = t.parameters.map Prod.snd ∧
      ∀ o : Object, o.definition = d → o.known = known → o.Delivers call t.trigger arguments := by
  -- The trigger was resolved against the interfaces that dispatch looks at again.
  have listens := linked.listens t member
  rw [Definition.Listens] at listens
  cases on : t.trigger with
  | method interface name =>
      simp only [on] at listens arrives
      obtain ⟨i, m, implemented, found, parameters⟩ := listens
      have ordinary : interface ≠ Interface.propertiesName := by
        simpa [Trigger.arrives] using arrives
      have listed := ((d.interface?_eq_some_iff known interface i).mp implemented).1
      refine ⟨sampleCall interface name m, _, .inl ⟨listed, ordinary⟩,
        (Ty.samples_ty _).trans parameters.symm, ?_⟩
      rintro o rfl rfl
      exact .method (sampleCall_callsMethod o interface name i m ordinary implemented found)
  | property interface name =>
      simp only [on] at listens arrives
      obtain ⟨i, p, implemented, found, parameters⟩ := listens
      have described := ((d.interface?_eq_some_iff known interface i).mp implemented).2
      have writable : p.access.writable = true := by
        simpa [Trigger.arrives, described, found] using arrives
      obtain rfl := known.find?_name interface i described
      obtain rfl := i.property?_name name p found
      refine ⟨sampleWrite i p, [p.ty.sample], .inr ⟨rfl, rfl⟩,
        by rw [parameters, List.map_singleton, Ty.sample_ty], ?_⟩
      rintro o rfl rfl
      exact .write (sampleWrite_writesProperty o i p implemented found writable)
  | arbitrary =>
      rw [on] at arrives
      cases arrives

/-- The machine stays, or takes a transition whose trigger arrives. -/
def Moves (o after : Object) : Prop :=
  after.machine = o.machine ∨ ∃ t ∈ (o.definition.arriving o.known).transitions,
    t.source = o.machine.current ∧ t.alwaysThrows = false ∧
      after.machine = { o.machine with current := t.target }

theorem handles_moves (o : Object) (bus busAfter : Bus) (trigger : Trigger) (arguments : List Value)
    (result : Except BusError Output) (after : Object) (arrives : trigger.arrives o.known = true)
    (handles : Handles o bus trigger arguments result after busAfter) : o.Moves after := by
  cases handles with
  | refused => exact .inl rfl
  | raised => exact .inl rfl
  | @completed _ t locals effects env reacts _ executes =>
      have stays := (Definition.mem_arriving_iff _ _ t).mpr
        ⟨reacts.member, reacts.trigger ▸ arrives⟩
      exact .inr ⟨t, stays, reacts.source, Statement.executes_throwFree executes, rfl⟩

theorem dispatch_moves (o : Object) (bus busAfter : Bus) (call : Call)
    (result : Except BusError Output) (after : Object)
    (branch : Branch (o.dispatch bus call) (result, after, busAfter)) : o.Moves after := by
  cases result with
  | ok output =>
      cases dispatch_succeeds o bus call output after busAfter branch with
      | read => exact .inl rfl
      | called calls handles =>
          exact handles_moves o bus busAfter _ _ _ after
            (delivers_arrives o call _ _ (.method calls)) handles
      | written writes handles =>
          exact handles_moves o bus busAfter _ _ _ after
            (delivers_arrives o call _ _ (.write writes)) handles
      | assigned => exact .inl rfl
  | error e =>
      have refused := (answers_transactional o bus call (.error e) after busAfter
        (dispatch_answers o bus call _ after busAfter branch)).refused e rfl
      exact .inl (congrArg Object.machine refused.1)

end Object

end SimBus
