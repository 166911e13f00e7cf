import SimBus.Builtin.Standard
import SimBus.Proofs.ObjectAnswers
/-!
Calls and ticks as transactions. A refusal leaves everything as it was. An error
that a body raises takes back all of it but the signals from before the error
and the count of the trigger. Everything else that does not merely read counts
one trigger and either enters the target of a transition or assigns a variable.
-/

namespace SimBus

open Draws (Branch)
open Statement (Executes Raises)

namespace Object

/-- A transition that the stimulus may set off in the current state, with the
locals that its body reads. -/
def Engages (o : Object) (stimulus : Option Trigger) (t : Transition)
    (locals : List (String × Value)) : Prop :=
  ∃ trigger arguments place, stimulus = some trigger ∧
    o.machine.Reacts trigger arguments place t locals

/-- An answer that is all or nothing, to a call or tick that `reads` properties
or else stands for a stimulus. -/
structure Transactional (o : Object) (bus : Bus) (reads : Bool) (stimulus : Option Trigger)
    (result : Except BusError Output) (after : Object) (busAfter : Bus) : Prop where
  refused : ∀ e, result = .error e → after = o ∧ busAfter = bus
  /-- The output ends in the error of a `throw`, and the signals sent are those
  of the statements before it. -/
  raised : ∀ output name text, result = .ok output → output.error? = some (name, text) →
    ∃ t locals before s rest effects middle, o.Engages stimulus t locals ∧
      t.body = before ++ s :: rest ∧ Executes o.builtins locals before o.env effects middle ∧
      Raises o.builtins locals middle s name text ∧
      effects.signals.map (fun s => (s.1, s.2.1)) = before.filterMap Statement.emitted? ∧
      after = { o with activity := o.activity + 1 } ∧ busAfter = bus.queue (o.sent effects)
  /-- A transition ran to its end, or there was none and a variable was assigned. -/
  settled : ∀ output, result = .ok output → output.error? = none → reads = false →
    busAfter = bus.queue (o.sent output) ∧
      ((∃ t locals effects env, o.Engages stimulus t locals ∧
          Executes o.builtins locals t.body o.env effects env ∧ after = o.moved t.target env) ∨
        ∃ trigger name value env, stimulus = some trigger ∧ o.machine.accepts trigger = false ∧
          o.env.assign name value = .ok env ∧ after = o.moved o.machine.current env)
  read : ∀ output, result = .ok output → reads = true → after = o ∧ busAfter = bus

theorem transactional_refusal (o : Object) (bus : Bus) (reads : Bool) (stimulus : Option Trigger)
    (e : BusError) : Transactional o bus reads stimulus (.error e) o bus where
  refused _ _ := ⟨rfl, rfl⟩
  raised _ _ _ answered := by cases answered
  settled _ answered := by cases answered
  read _ answered := by cases answered

theorem transactional_reading (o : Object) (bus : Bus) (stimulus : Option Trigger)
    (payload : Value) : Transactional o bus true stimulus (.ok [.reply payload]) o bus where
  refused _ answered := by cases answered
  raised output name text answered failed := by
    cases answered
    cases failed
  settled _ _ _ reads := by cases reads
  read _ _ _ := ⟨rfl, rfl⟩

theorem handles_transactional (o : Object) (bus : Bus) (trigger : Trigger)
    (arguments : List Value) (result : Except BusError Output) (after : Object) (busAfter : Bus)
    (handles : Handles o bus trigger arguments result after busAfter) :
    Transactional o bus false (some trigger) result after busAfter := by
  cases handles with
  | refused e => exact transactional_refusal o bus false (some trigger) e
  | @raised place t locals before rest s effects middle name text reacts _ split executes raises =>
      have failed := Output.error?_ended effects name text (Statement.executes_error? executes)
      refine ⟨fun _ answered => (by cases answered), ?_, ?_, fun _ _ reads => (by cases reads)⟩
      · intro output name' text' answered error
        obtain rfl := Except.ok.inj answered
        obtain ⟨rfl, rfl⟩ := Prod.mk.inj (Option.some.inj (failed.symm.trans error))
        exact ⟨t, locals, before, s, rest, effects, middle,
          ⟨trigger, arguments, place, rfl, reacts⟩, split, executes, raises,
          Statement.executes_signals executes, rfl, rfl⟩
      · intro output answered none
        obtain rfl := Except.ok.inj answered
        cases failed.symm.trans none
  | @completed place t locals effects env reacts _ executes =>
      have succeeded := error?_announced effects o (o.moved t.target env)
        (Statement.executes_error? executes)
      refine ⟨fun _ answered => (by cases answered), ?_, ?_, fun _ _ reads => (by cases reads)⟩
      · intro output name text answered error
        obtain rfl := Except.ok.inj answered
        cases succeeded.symm.trans error
      · intro output answered _ _
        obtain rfl := Except.ok.inj answered
        exact ⟨rfl, .inl ⟨t, locals, effects, env, ⟨trigger, arguments, place, rfl, reacts⟩,
          executes, rfl⟩⟩

theorem acknowledge_error? (output : Output) : (acknowledge output).error? = output.error? := by
  unfold acknowledge
  split
  · rfl
  · simp [Output.error?_append, Output.error?]

theorem acknowledge_signals (output : Output) :
    Output.signals (acknowledge output) = output.signals := by
  unfold acknowledge
  split
  · rfl
  · simp [Output.signals_append, Output.signals]

theorem acknowledge_sent (o : Object) (output : Output) :
    o.sent (acknowledge output) = o.sent output := by
  rw [sent, sent, acknowledge_signals]

theorem transactional_acknowledged (o : Object) (bus : Bus) (reads : Bool)
    (stimulus : Option Trigger) (result : Except BusError Output) (after : Object) (busAfter : Bus)
    (plain : Transactional o bus reads stimulus result after busAfter) :
    Transactional o bus reads stimulus (result.map acknowledge) after busAfter := by
  cases result with
  | error e =>
      exact ⟨fun _ _ => plain.refused e rfl, fun _ _ _ answered => (by cases answered),
        fun _ answered => (by cases answered), fun _ answered => (by cases answered)⟩
  | ok output =>
      refine ⟨fun _ answered => (by cases answered), ?_, ?_, ?_⟩
      · intro acknowledged name text answered failed
        obtain rfl := Except.ok.inj answered
        exact plain.raised output name text rfl (acknowledge_error? output ▸ failed)
      · intro acknowledged answered succeeded writes
        obtain rfl := Except.ok.inj answered
        rw [acknowledge_error?] at succeeded
        rw [acknowledge_sent]
        exact plain.settled output rfl succeeded writes
      · intro _ _ reading
        exact plain.read output rfl reading

theorem transactional_assignment (o : Object) (bus : Bus) (trigger : Trigger) (name : String)
    (value : Value) (env : Environment) (output : Output)
    (passive : o.machine.accepts trigger = false) (assigned : o.env.assign name value = .ok env)
    (told : output = announcements o (o.moved o.machine.current env)) :
    Transactional o bus false (some trigger) (.ok output) (o.moved o.machine.current env)
      (bus.queue (o.sent output)) where
  refused _ answered := by cases answered
  raised output' name' text answered failed := by
    obtain rfl := Except.ok.inj answered
    rw [told, announcements_error?] at failed
    cases failed
  settled output' answered _ _ := by
    obtain rfl := Except.ok.inj answered
    exact ⟨rfl, .inr ⟨trigger, name, value, env, rfl, passive, assigned, rfl⟩⟩
  read _ _ reads := by cases reads

theorem answers_transactional (o : Object) (bus : Bus) (call : Call)
    (result : Except BusError Output) (after : Object) (busAfter : Bus)
    (answers : Answers o bus call result after busAfter) :
    Transactional o bus call.reads (o.stimulus? call) result after busAfter := by
  cases answers with
  | refused e => exact transactional_refusal o bus _ _ e
  | read payload reads =>
      rw [reads]
      exact transactional_reading o bus _ payload
  | called writes stimulus handles =>
      rw [writes, stimulus]
      exact handles_transactional o bus _ _ result after busAfter handles
  | written writes stimulus _ handles =>
      rw [writes, stimulus]
      exact transactional_acknowledged o bus _ _ _ after busAfter
        (handles_transactional o bus _ _ _ after busAfter handles)
  | assigned writes stimulus _ passive assigned told =>
      rw [writes, stimulus]
      exact transactional_acknowledged o bus false _ (.ok _) _ _
        (transactional_assignment o bus _ _ _ _ _ passive assigned told)

/-- Every call and every tick is a transaction, on the bus or off it. -/
theorem operations_transactional (o : Object) (bus : Bus) :
    (∀ call result after busAfter, Branch (o.dispatch bus call) (result, after, busAfter) →
      Transactional o bus call.reads (o.stimulus? call) result after busAfter) ∧
    ∀ result after busAfter, Branch (o.tick bus) (result, after, busAfter) →
      (result = none ∧ after = o ∧ busAfter = bus) ∨
        ∃ answer, result = some answer ∧
          Transactional o bus false (some .arbitrary) answer after busAfter := by
  constructor
  · intro call result after busAfter branch
    exact answers_transactional o bus call result after busAfter
      (dispatch_answers o bus call result after busAfter branch)
  · intro result after busAfter branch
    rcases tick_cases o bus result after busAfter branch with idle | ⟨answer, rfl, handles⟩
    · exact .inl idle
    · exact .inr
        ⟨answer, rfl, handles_transactional o bus .arbitrary [] answer after busAfter handles⟩

def waverer : Object where
  machine :=
    { current := 0
      definition :=
        { path := "/waverer"
          names := []
          interfaces := ["test.Waverer"]
          data := [⟨"decided", .bool, .literal (.bool false), ⟨2, 10⟩⟩]
          states := ["idle", "done"]
          transitions :=
            [⟨0, 1, .method "test.Waverer" "Decide", [], [],
              [.assign "decided" (.literal (.bool true)),
                .emit "test.Waverer" "Decided" (.tuple []), .throw "test.Refused" none], ⟨4, 3⟩⟩]
          position := ⟨1, 1⟩ } }
  env := [⟨"decided", .bool, .bool false, .bool false⟩]
  known := ⟨[⟨"test.Waverer", [⟨"Decide", [], []⟩], [⟨"Decided", []⟩], []⟩]⟩
  builtins := Builtin.standard
  activity := 0
  registered := true
  held := []

def waverer.decide : Call := ⟨"test.Waverer", "Decide", []⟩

theorem waverer_decide_transactional :
    let ended := ((waverer.dispatch Bus.empty waverer.decide).run Draws.listedAnswers []).1
    ended.1.toOption.bind Output.error? = some ("test.Refused", "") ∧
      Transactional waverer Bus.empty false (some (.method "test.Waverer" "Decide"))
        ended.1 ended.2.1 ended.2.2 :=
  ⟨by rfl, (operations_transactional waverer Bus.empty).1 waverer.decide _ _ _
    (Draws.run_branch Draws.listedAnswers _ [])⟩

end Object

end SimBus
