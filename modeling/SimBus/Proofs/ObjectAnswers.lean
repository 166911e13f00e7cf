import SimBus.Object
import SimBus.Proofs.Firings
/-!
What an object can answer, to a trigger and to a call. An answer is a refusal,
a reading of properties, the outcome of a firing, or an assignment; with it
come the object and the bus afterwards.
-/

namespace SimBus

open Draws (Branch branch_pure_triple branch_bind_iff)
open Statement (Executes Raises)

def Bus.queue (bus : Bus) (emissions : List Emission) : Bus :=
  { bus with signals := bus.signals ++ emissions }

theorem Bus.queue_nil (bus : Bus) : bus.queue [] = bus := by simp [queue]

theorem Bus.queue_queue (bus : Bus) (first second : List Emission) :
    (bus.queue first).queue second = bus.queue (first ++ second) := by simp [queue]

def Call.reads (call : Call) : Bool :=
  call.interface == Interface.propertiesName && (call.member == "Get" || call.member == "GetAll")

namespace Object

/-- The signals of an output as they go out; an object off the bus sends none. -/
def sent (o : Object) (output : Output) : List Emission :=
  if o.registered then output.signals.map fun s => ⟨o.path, s.1, s.2.1, s.2.2⟩ else []

theorem publish_queue (o : Object) (output : Output) (bus : Bus) :
    o.publish output bus = bus.queue (o.sent output) := by
  unfold publish sent
  by_cases registered : o.registered = true
  · simp only [registered, ↓reduceIte]
    generalize output.signals = signals
    induction signals generalizing bus with
    | nil => simp [Bus.queue_nil]
    | cons s rest ih =>
        rw [List.foldl_cons, ih]
        exact Bus.queue_queue bus [_] _
  · simp [registered, Bus.queue_nil]

theorem announcements_error? (before after : Object) :
    Output.error? (announcements before after) = none := by
  unfold announcements
  induction changes before.exposedValues after.exposedValues [] with
  | nil => rfl
  | cons change rest ih => exact ih

theorem error?_announced (effects : Output) (before after : Object)
    (clean : Output.error? effects = none) :
    Output.error? (effects ++ announcements before after) = none := by
  rw [Output.error?_append, clean, announcements_error?]
  rfl

/-- The object after a transition into a state, or within one. -/
def moved (o : Object) (state : Nat) (env : Environment) : Object :=
  { o with machine := { o.machine with current := state }, env := env, activity := o.activity + 1 }

/-- The trigger that a call stands for. A reading of properties sets nothing off. -/
def stimulus? (o : Object) (call : Call) : Option Trigger :=
  if call.interface = Interface.propertiesName then
    match call.member, call.arguments with
    | "Set", [interface, name, _] =>
        match o.property (interface.text?.getD "") (name.text?.getD "") with
        | .ok (i, p) => some (.property i.name p.name)
        | .error _ => none
    | _, _ => none
  else some (.method call.interface call.member)

/-- What an object does about a trigger. -/
inductive Handles (o : Object) (bus : Bus) (trigger : Trigger) (arguments : List Value) :
    Except BusError Output → Object → Bus → Prop where
  | refused (e : BusError) : Handles o bus trigger arguments (.error e) o bus
  | raised {place : Nat} {t : Transition} {locals : List (String × Value)}
      {before rest : List Statement} {s : Statement} {effects : Output} {middle : Environment}
      {name text : String} :
      o.machine.Reacts trigger arguments place t locals →
      Machine.Guarded o.builtins o.env t locals (.ok none) → t.body = before ++ s :: rest →
      Executes o.builtins locals before o.env effects middle →
      Raises o.builtins locals middle s name text →
      Handles o bus trigger arguments (.ok (effects ++ [.error name text]))
        (o.moved o.machine.current o.env) (bus.queue (o.sent effects))
  | completed {place : Nat} {t : Transition} {locals : List (String × Value)} {effects : Output}
      {env : Environment} :
      o.machine.Reacts trigger arguments place t locals →
      Machine.Guarded o.builtins o.env t locals (.ok none) →
      Executes o.builtins locals t.body o.env effects env →
      Handles o bus trigger arguments (.ok (effects ++ announcements o (o.moved t.target env)))
        (o.moved t.target env)
        (bus.queue (o.sent (effects ++ announcements o (o.moved t.target env))))

theorem sent_raised (o : Object) (effects : Output) (name text : String) :
    o.sent (effects ++ [.error name text]) = o.sent effects := by
  rw [sent, sent, Output.signals_ended]

theorem fire_handles (o : Object) (bus : Bus) (trigger : Trigger) (arguments : List Value)
    (result : Except BusError Output) (after : Object) (busAfter : Bus)
    (branch : Branch (o.fire bus trigger arguments) (result, after, busAfter)) :
    Handles o bus trigger arguments result after busAfter := by
  obtain ⟨⟨fired, machine, env⟩, firing, continued⟩ := (branch_bind_iff _ _ _).mp branch
  cases Machine.fire_fires o.machine o.builtins o.env trigger arguments fired machine env
    firing with
  | noTransition | unbound | guardFault | blocked | bodyFault =>
      obtain ⟨rfl, rfl, rfl⟩ := branch_pure_triple continued
      exact .refused _
  | raised reacts guarded ends =>
      cases ends with
      | @raised before rest s _ effects name text split executes raises =>
          have failed := Output.error?_ended effects name text (Statement.executes_error? executes)
          simp only [Firing.completed, failed, publish_queue] at continued
          obtain ⟨rfl, rfl, rfl⟩ := branch_pure_triple continued
          -- The error itself is no signal, so it does not change what is sent.
          have handled : Handles o bus trigger arguments
              (.ok (effects ++ [.error name text])) _ _ :=
            .raised reacts guarded split executes raises
          rw [← sent_raised o effects name text] at handled
          exact handled
  | @completed _ t _ _ output reacts guarded ends =>
      obtain ⟨executes⟩ := ends
      have succeeded : output.error? = none := Statement.executes_error? executes
      simp only [Firing.completed, succeeded, publish_queue] at continued
      obtain ⟨rfl, rfl, rfl⟩ := branch_pure_triple continued
      exact .completed reacts guarded executes

inductive Answers (o : Object) (bus : Bus) (call : Call) :
    Except BusError Output → Object → Bus → Prop where
  | refused (e : BusError) : Answers o bus call (.error e) o bus
  | read (payload : Value) : call.reads = true → Answers o bus call (.ok [.reply payload]) o bus
  | called {trigger : Trigger} {result : Except BusError Output} {after : Object} {busAfter : Bus} :
      call.reads = false → o.stimulus? call = some trigger →
      Handles o bus trigger call.arguments result after busAfter →
      Answers o bus call result after busAfter
  | written {trigger : Trigger} {value : Value} {result : Except BusError Output} {after : Object}
      {busAfter : Bus} :
      call.reads = false → o.stimulus? call = some trigger → value ∈ call.arguments →
      Handles o bus trigger [unwrap value] result after busAfter →
      Answers o bus call (result.map acknowledge) after busAfter
  | assigned {trigger : Trigger} {name : String} {value : Value} {env : Environment}
      {output : Output} :
      call.reads = false → o.stimulus? call = some trigger → value ∈ call.arguments →
      o.machine.accepts trigger = false → o.env.assign name (unwrap value) = .ok env →
      output = announcements o (o.moved o.machine.current env) →
      Answers o bus call (.ok (acknowledge output)) (o.moved o.machine.current env)
        (bus.queue (o.sent output))

theorem assignProperty_cases (o : Object) (bus : Bus) (p : Property) (value : Value) :
    (∃ e, o.assignProperty bus p value = (.error e, o, bus)) ∨
      ∃ env output, o.env.assign p.name value = .ok env ∧
        output = announcements o (o.moved o.machine.current env) ∧
        o.assignProperty bus p value =
          (.ok output, o.moved o.machine.current env, bus.queue (o.sent output)) := by
  unfold assignProperty
  cases o.propertyValue p with
  | error e => exact .inl ⟨e, rfl⟩
  | ok _ =>
      cases assigned : o.env.assign p.name value with
      | error e => exact .inl ⟨.notAssignable e, rfl⟩
      | ok env =>
          refine .inr ⟨env, _, rfl, rfl, ?_⟩
          simp only [publish_queue]
          rfl

theorem answers_refusal {o after : Object} {bus busAfter : Bus} {call : Call} {e : BusError}
    {result : Except BusError Output}
    (branch : Branch (pure (Except.error e, o, bus)) (result, after, busAfter)) :
    Answers o bus call result after busAfter := by
  obtain ⟨rfl, rfl, rfl⟩ := branch_pure_triple branch
  exact .refused e

theorem answers_reading {o after : Object} {bus busAfter : Bus} {call : Call}
    {read result : Except BusError Output} (reads : call.reads = true)
    (replies : ∀ output, read = .ok output → ∃ payload, output = [.reply payload])
    (branch : Branch (pure (read, o, bus)) (result, after, busAfter)) :
    Answers o bus call result after busAfter := by
  obtain ⟨rfl, rfl, rfl⟩ := branch_pure_triple branch
  cases result with
  | error e => exact .refused e
  | ok output =>
      obtain ⟨payload, rfl⟩ := replies output rfl
      exact .read payload reads

theorem callMethod_answers (o : Object) (bus : Bus) (call : Call)
    (result : Except BusError Output) (after : Object) (busAfter : Bus)
    (method : call.interface ≠ Interface.propertiesName)
    (branch : Branch (o.callMethod bus call) (result, after, busAfter)) :
    Answers o bus call result after busAfter := by
  unfold callMethod at branch
  split at branch
  · exact answers_refusal branch
  · split at branch
    · exact answers_refusal branch
    · split at branch
      · exact answers_refusal branch
      · exact .called (by simp [Call.reads, method]) (by simp [stimulus?, method])
          (fire_handles o bus _ _ result after busAfter branch)

theorem setProperty_answers (o : Object) (bus : Bus) (call : Call)
    (interface name value : Value) (result : Except BusError Output) (after : Object)
    (busAfter : Bus) (properties : call.interface = Interface.propertiesName)
    (member : call.member = "Set") (arguments : call.arguments = [interface, name, value])
    (branch : Branch (o.setProperty bus (interface.text?.getD "") (name.text?.getD "")
      (unwrap value)) (result, after, busAfter)) :
    Answers o bus call result after busAfter := by
  have writes : call.reads = false := by simp [Call.reads, member]
  unfold setProperty at branch
  cases found : o.property (interface.text?.getD "") (name.text?.getD "") with
  | error e =>
      simp only [found] at branch
      exact answers_refusal branch
  | ok property =>
      obtain ⟨i, p⟩ := property
      have supplied : value ∈ call.arguments := by simp [arguments]
      have stimulus : o.stimulus? call = some (.property i.name p.name) := by
        simp [stimulus?, properties, member, arguments, found]
      simp only [found] at branch
      split at branch
      · exact answers_refusal branch
      · split at branch
        · exact answers_refusal branch
        · split at branch
          · obtain ⟨⟨inner, o', bus'⟩, fired, continued⟩ := (branch_bind_iff _ _ _).mp branch
            obtain ⟨rfl, rfl, rfl⟩ := branch_pure_triple continued
            exact .written writes stimulus supplied (fire_handles o bus _ _ inner _ _ fired)
          · next passive =>
              rcases assignProperty_cases o bus p (unwrap value) with
                ⟨e, refused⟩ | ⟨env, output, assigned, same, done⟩
              · rw [refused, pure_bind] at branch
                exact answers_refusal branch
              · simp only [done, pure_bind] at branch
                obtain ⟨rfl, rfl, rfl⟩ := branch_pure_triple branch
                exact .assigned writes stimulus supplied (by simpa using passive) assigned same

theorem getProperty_ok (o : Object) (interface name : String) (output : Output)
    (answered : o.getProperty interface name = .ok output) :
    ∃ payload, output = [.reply payload] := by
  unfold getProperty at answered
  cases found : o.property interface name with
  | error e => simp [found, bind, Except.bind] at answered
  | ok property =>
      simp only [found, bind, Except.bind] at answered
      split at answered
      · cases value : o.propertyValue property.2 with
        | error e => simp [value] at answered
        | ok value' =>
            simp only [value, pure, Except.pure, Except.ok.injEq] at answered
            exact ⟨_, answered.symm⟩
      · cases answered

theorem getAllProperties_ok (o : Object) (interface : String) (output : Output)
    (answered : o.getAllProperties interface = .ok output) :
    ∃ payload, output = [.reply payload] := by
  unfold getAllProperties at answered
  split at answered
  · cases answered
  · exact ⟨_, (Except.ok.inj answered).symm⟩

theorem callProperties_answers (o : Object) (bus : Bus) (call : Call)
    (result : Except BusError Output) (after : Object) (busAfter : Bus)
    (properties : call.interface = Interface.propertiesName)
    (branch : Branch (o.callProperties bus call) (result, after, busAfter)) :
    Answers o bus call result after busAfter := by
  unfold callProperties at branch
  simp only at branch
  split at branch
  · next member =>
      have reads : call.reads = true := by simp [Call.reads, properties, member]
      split at branch
      · exact answers_refusal branch
      · exact answers_reading reads (getProperty_ok o _ _) branch
      · exact answers_refusal branch
  · next member =>
      have reads : call.reads = true := by simp [Call.reads, properties, member]
      split at branch
      · exact answers_refusal branch
      · exact answers_reading reads (getAllProperties_ok o _) branch
      · exact answers_refusal branch
  · next member =>
      split at branch
      · exact answers_refusal branch
      · next interface name value _ arguments =>
          exact setProperty_answers o bus call interface name value result after busAfter
            properties member arguments branch
      · exact answers_refusal branch
  · exact answers_refusal branch

theorem dispatch_answers (o : Object) (bus : Bus) (call : Call)
    (result : Except BusError Output) (after : Object) (busAfter : Bus)
    (branch : Branch (o.dispatch bus call) (result, after, busAfter)) :
    Answers o bus call result after busAfter := by
  unfold dispatch at branch
  by_cases properties : call.interface = Interface.propertiesName
  · simp only [properties, ↓reduceIte] at branch
    exact callProperties_answers o bus call result after busAfter properties branch
  · simp only [properties, ↓reduceIte] at branch
    exact callMethod_answers o bus call result after busAfter properties branch

theorem tick_cases (o : Object) (bus : Bus) (result : Option (Except BusError Output))
    (after : Object) (busAfter : Bus)
    (branch : Branch (o.tick bus) (result, after, busAfter)) :
    (result = none ∧ after = o ∧ busAfter = bus) ∨
      ∃ answer, result = some answer ∧ Handles o bus .arbitrary [] answer after busAfter := by
  unfold tick at branch
  split at branch
  · obtain ⟨⟨answer, o', bus'⟩, fired, continued⟩ := (branch_bind_iff _ _ _).mp branch
    obtain ⟨rfl, rfl, rfl⟩ := branch_pure_triple continued
    exact .inr ⟨answer, rfl, fire_handles o bus .arbitrary [] answer _ _ fired⟩
  · exact .inl (branch_pure_triple branch)

end Object

end SimBus
