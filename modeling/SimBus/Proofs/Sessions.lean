import SimBus.Proofs.PropertyWrites
import SimBus.Proofs.SimulationSignals
/-!
Whole sessions. Whatever lines come in, and however often the service is polled in
between, every line that is not blank is answered once, behind the events of what the
hosted objects sent meanwhile. No signal is lost on the way, and none is written twice.
Until a handshake succeeds the lines do nothing to the objects; from then on the session
stays open.
-/

namespace SimBus

open Draws (Branch branch_bind_iff)
open Simulation (Ticked emissions)

namespace Service

/-- What is answered to a request, with what the hosted objects answered to it. -/
def observe (s : Service) (request : Request) :
    Draws (List Ticked × Except ServiceError Json × Service) :=
  if s.greeted = true ∧ request.command = "call" then
    match requestedCall s.simulation.known request.params with
    | .error e => pure ([], .error e, s)
    | .ok (path, call) => do
        let (result, after) ← s.simulation.call path call
        let outcome := match result with
          | .error e => .error (.bus e)
          | .ok output => callResult output
        pure ([(path, result)], outcome, { s with simulation := after })
  else if s.greeted = true ∧ request.command = "tick" then do
    let (ticked, after) ← s.simulation.tick
    pure (ticked, .ok (Json.ofMembers [("fired", .array (ticked.map (tickedJson after)))]),
      { s with simulation := after })
  else do
    let (outcome, after) ← s.answer request
    pure ([], outcome, after)

inductive Input where
  | line (text : String)
  | poll

/-- What an input leads to: the answers of the hosted objects and the lines to write. -/
def exchange (s : Service) : Input → Draws (List Ticked × List ServiceLine × Service)
  | .line text =>
      match Request.ofLine? text with
      | none => do
          let (written, after) ← s.handleLine text
          pure ([], written, after)
      | some request => do
          let (log, outcome, after) ← s.observe request
          let (events, after) := after.takeEvents
          pure (log, events ++ [.response request.id outcome], after)
  | .poll => do
      let (ticked, after) ← s.simulation.tick
      let (events, after) := takeEvents { s with simulation := after }
      pure (ticked, events, after)

theorem answer_command (s : Service) (request : Request) (greeted : s.greeted = true)
    (ordinary : request.command ≠ "handshake") :
    s.answer request = s.command request.command request.params := by
  rw [answer, if_neg ordinary, if_pos greeted]

theorem observe_answer (s : Service) (request : Request) :
    Prod.snd <$> s.observe request = s.answer request := by
  unfold observe
  split
  · next called =>
      rw [answer_command s request called.1 (by simp [called.2]), called.2, command, Service.call]
      cases requestedCall s.simulation.known request.params with
      | error e => rfl
      | ok requested =>
          rw [map_bind]
          congr 1
          funext reply
          obtain ⟨result, after⟩ := reply
          cases result <;> rfl
  · split
    · next ticked =>
        rw [answer_command s request ticked.1 (by simp [ticked.2]), ticked.2, command, Service.tick,
          map_bind]
        rfl
    · simp

theorem exchange_request (s : Service) (text : String) (request : Request)
    (reads : Request.ofLine? text = some request) : s.exchange (.line text) = (do
      let (log, outcome, after) ← s.observe request
      let (events, after) := after.takeEvents
      pure (log, events ++ [.response request.id outcome], after)) := by
  rw [exchange, reads]

theorem exchange_handleLine (s : Service) (text : String) :
    Prod.snd <$> s.exchange (.line text) = s.handleLine text := by
  cases reads : Request.ofLine? text with
  | none => simp [exchange, reads]
  | some request =>
      simp [exchange_request s text request reads, handleLine_request s text request reads,
        ← observe_answer]

theorem exchange_poll (s : Service) :
    (fun reply => (reply.1.length, reply.2)) <$> s.exchange .poll = s.poll := by
  simp [exchange, poll]

/-- How a request is dealt with: which signals are sent, whether the session is open
afterwards, and when the request is refused because it is not. -/
structure Observed (s : Service) (request : Request) (log : List Ticked)
    (outcome : Except ServiceError Json) (after : Service) : Prop where
  hosting : after.simulation.Hosting
  signals : after.simulation.bus.signals = s.simulation.bus.signals ++ emissions log
  greeted : after.greeted = true ↔
    s.greeted = true ∨ request.command = "handshake" ∧ ∃ result, outcome = .ok result
  gate : request.command ≠ "handshake" → (outcome = .error .handshakeRequired ↔ s.greeted = false)

def Admitted {α : Type} (result : Except ServiceError α) : Prop :=
  result ≠ .error .handshakeRequired

theorem admitted_bind {α β : Type} (result : Except ServiceError α) (f : α → Except ServiceError β)
    (first : Admitted result) (rest : ∀ a, Admitted (f a)) : Admitted (result >>= f) := by
  cases result with
  | error e => simpa [Admitted, bind, Except.bind] using first
  | ok a => exact rest a

theorem textParameter_admitted (params : Json) (name : String) :
    Admitted (textParameter params name) := by
  unfold textParameter
  split <;> simp [Admitted]

theorem callArguments_admitted (params : Json) : Admitted (callArguments params) := by
  unfold callArguments
  split <;> simp [Admitted]

theorem requestedCall_admitted (known : InterfaceSet) (params : Json) :
    Admitted (requestedCall known params) := by
  refine admitted_bind _ _ (textParameter_admitted params "path") fun path => ?_
  refine admitted_bind _ _ (textParameter_admitted params "interface") fun interface => ?_
  refine admitted_bind _ _ (textParameter_admitted params "member") fun member => ?_
  refine admitted_bind _ _ (callArguments_admitted params) fun arguments => ?_
  cases Call.ofJson known interface member arguments <;> simp [Admitted]

theorem callResult_admitted (output : Output) : Admitted (callResult output) := by
  unfold callResult
  split <;> simp [Admitted]

theorem observed_open (s : Service) (request : Request) (log : List Ticked)
    (outcome : Except ServiceError Json) (after : Simulation) (greeted : s.greeted = true)
    (hosting : after.Hosting)
    (signals : after.bus.signals = s.simulation.bus.signals ++ emissions log)
    (admitted : Admitted outcome) :
    Observed s request log outcome { s with simulation := after } where
  hosting := hosting
  signals := signals
  greeted := by simp [greeted]
  gate _ := ⟨fun refused => absurd refused admitted, fun closed => by simp [greeted] at closed⟩

theorem answer_observed (s : Service) (hosting : s.simulation.Hosting) (request : Request)
    (outcome : Except ServiceError Json) (after : Service)
    (noCall : ¬ (s.greeted = true ∧ request.command = "call"))
    (noTick : ¬ (s.greeted = true ∧ request.command = "tick"))
    (branch : Branch (s.answer request) (outcome, after)) :
    Observed s request [] outcome after := by
  unfold answer at branch
  split at branch
  · next handshake =>
      split at branch
      · obtain ⟨rfl, rfl⟩ := Draws.branch_pure_pair branch
        exact ⟨hosting, by simp, by simp [handshake], fun other => absurd handshake other⟩
      · obtain ⟨rfl, rfl⟩ := Draws.branch_pure_pair branch
        exact ⟨hosting, by simp, by simp, fun other => absurd handshake other⟩
  · next ordinary =>
      split at branch
      · next greeted =>
          unfold command at branch
          split at branch
          · next called => exact absurd ⟨greeted, called⟩ noCall
          · next ticked => exact absurd ⟨greeted, ticked⟩ noTick
          · obtain ⟨rfl, rfl⟩ := Draws.branch_pure_pair branch
            exact observed_open s request [] _ _ greeted
              (Simulation.reset_hosting s.simulation hosting) (by simp [Simulation.reset])
              (by simp [Admitted])
          all_goals
            obtain ⟨rfl, rfl⟩ := Draws.branch_pure_pair branch
            exact observed_open after request [] _ _ greeted hosting (by simp) (by simp [Admitted])
      · next closed =>
          obtain ⟨rfl, rfl⟩ := Draws.branch_pure_pair branch
          exact ⟨hosting, by simp, by simp, fun _ => by simpa using closed⟩

theorem observe_observed (s : Service) (hosting : s.simulation.Hosting) (request : Request)
    (log : List Ticked) (outcome : Except ServiceError Json) (after : Service)
    (branch : Branch (s.observe request) (log, outcome, after)) :
    Observed s request log outcome after := by
  unfold observe at branch
  split at branch
  · next called =>
      split at branch
      · next e refused =>
          obtain ⟨rfl, rfl, rfl⟩ := Draws.branch_pure_triple branch
          have admitted : Admitted (requestedCall after.simulation.known request.params) :=
            requestedCall_admitted _ _
          rw [refused] at admitted
          exact observed_open after request [] _ _ called.1 hosting (by simp)
            (by simpa [Admitted] using admitted)
      · next path call _ =>
          obtain ⟨⟨result, simulation⟩, calls, answered⟩ := (branch_bind_iff _ _ _).mp branch
          obtain ⟨rfl, rfl, rfl⟩ := Draws.branch_pure_triple answered
          have sent := Simulation.call_emits _ _ hosting path call result calls
          refine observed_open s request _ _ _ called.1
            (Simulation.call_hosting _ _ hosting path call result calls) (by rw [sent]; rfl) ?_
          cases result with
          | error e => simp [Admitted]
          | ok output => exact callResult_admitted output
  · next noCall =>
      split at branch
      · next ticked =>
          obtain ⟨⟨results, simulation⟩, ticks, answered⟩ := (branch_bind_iff _ _ _).mp branch
          obtain ⟨rfl, rfl, rfl⟩ := Draws.branch_pure_triple answered
          have sent := Simulation.tick_emits _ _ hosting log ticks
          exact observed_open s request _ _ _ ticked.1
            (Simulation.tick_hosting _ _ hosting log ticks) (by rw [sent]; rfl) (by simp [Admitted])
      · next noTick =>
          obtain ⟨⟨result, after'⟩, answers, answered⟩ := (branch_bind_iff _ _ _).mp branch
          obtain ⟨rfl, rfl, rfl⟩ := Draws.branch_pure_triple answered
          exact answer_observed s hosting request _ _ noCall noTick answers

theorem observe_closed (s : Service) (closed : s.greeted = false) (request : Request) :
    ∃ outcome after, s.observe request = pure ([], outcome, after) ∧
      after.simulation = s.simulation := by
  simp only [observe, answer, closed, Bool.false_eq_true, false_and, ↓reduceIte]
  split
  · cases handshakeClient request.params with
    | ok client => exact ⟨_, _, rfl, rfl⟩
    | error e => exact ⟨_, _, rfl, rfl⟩
  · exact ⟨_, _, rfl, rfl⟩

def pending (s : Service) : List Emission := s.simulation.bus.signals

end Service

def ServiceLine.events (written : List ServiceLine) : List Emission :=
  written.filterMap fun
    | .event signal => some signal
    | .response .. => none

def Request.idOf (line : String) : Json := ((Request.ofLine? line).map Request.id).getD .null

structure Exchange where
  input : Service.Input
  before : Service
  log : List Ticked
  written : List ServiceLine
  after : Service

namespace Exchange

def Greets (e : Exchange) : Prop :=
  ∃ text request result, e.input = .line text ∧ Request.ofLine? text = some request ∧
    request.command = "handshake" ∧ .response request.id (.ok result) ∈ e.written

def told (e : Exchange) : List ServiceLine := (e.before.pending ++ emissions e.log).map .event

/-- An exchange in which the service keeps to the protocol. -/
structure Proper (e : Exchange) : Prop where
  /-- A blank line is ignored. -/
  blank : ∀ text, e.input = .line text → Text.isBlank text = true →
    e.log = [] ∧ e.written = [] ∧ e.after = e.before
  /-- Any other line gets one response, behind the events. -/
  answered : ∀ text, e.input = .line text → Text.isBlank text = false →
    e.after.pending = [] ∧
      ∃ outcome, e.written = e.told ++ [.response (Request.idOf text) outcome] ∧
        ∀ request, Request.ofLine? text = some request → request.command ≠ "handshake" →
          (outcome = .error .handshakeRequired ↔ e.before.greeted = false)
  polled : e.input = .poll → e.after.pending = [] ∧ e.written = e.told
  /-- Before the handshake, a line at most takes the signals that wait. -/
  closed : ∀ text, e.input = .line text → e.before.greeted = false →
    e.log = [] ∧ e.before.handleLine text = pure (e.written, e.after) ∧
      e.after.simulation.takeSignals.2 = e.before.simulation.takeSignals.2
  greeted : e.after.greeted = true ↔ e.before.greeted = true ∨ e.Greets

end Exchange

namespace Service

theorem takeEvents_eq (s : Service) :
    s.takeEvents =
      (s.pending.map .event, { s with simulation := s.simulation.takeSignals.2 }) := rfl

theorem proper_blank (s : Service) (text : String) (blank : Text.isBlank text = true) :
    s.handleLine text = pure ([], s) ∧ Exchange.Proper ⟨.line text, s, [], [], s⟩ := by
  have handles : s.handleLine text = pure ([], s) := by simp [handleLine, blank]
  refine ⟨handles, ?_⟩
  exact
    { blank := fun _ _ _ => ⟨rfl, rfl, rfl⟩
      answered := by
        rintro _ ⟨⟩ other
        rw [blank] at other
        cases other
      polled := by rintro ⟨⟩
      closed := by
        rintro _ ⟨⟩ _
        exact ⟨rfl, handles, rfl⟩
      greeted := by
        have silent : ¬ Exchange.Greets ⟨.line text, s, [], [], s⟩ := by
          rintro ⟨_, _, _, -, -, -, member⟩
          cases member
        exact (or_iff_left silent).symm }

theorem proper_garbled (s : Service) (text : String) (written : Text.isBlank text = false)
    (reads : Request.ofLine? text = none) :
    s.handleLine text =
        pure (s.pending.map .event ++ [.response .null (.error .notRequest)], s.takeEvents.2) ∧
      Exchange.Proper ⟨.line text, s, [],
        s.pending.map .event ++ [.response .null (.error .notRequest)], s.takeEvents.2⟩ := by
  have handles : s.handleLine text =
      pure (s.pending.map .event ++ [.response .null (.error .notRequest)], s.takeEvents.2) := by
    simp [handleLine, written, reads, takeEvents_eq]
  refine ⟨handles, ?_⟩
  exact
    { blank := by
        rintro _ ⟨⟩ blank
        rw [written] at blank
        cases blank
      answered := by
        rintro _ ⟨⟩ -
        refine ⟨rfl, .error .notRequest, by simp [Exchange.told, Request.idOf, reads], ?_⟩
        intro request reading
        rw [reads] at reading
        cases reading
      polled := by rintro ⟨⟩
      closed := by
        rintro _ ⟨⟩ _
        exact ⟨rfl, handles, rfl⟩
      greeted := by
        have silent : ¬ Exchange.Greets ⟨.line text, s, [],
            s.pending.map .event ++ [.response .null (.error .notRequest)], s.takeEvents.2⟩ := by
          rintro ⟨_, request, _, ⟨⟩, reading, -⟩
          rw [reads] at reading
          cases reading
        exact (or_iff_left silent).symm }

theorem proper_requested (s after : Service) (text : String) (request : Request)
    (reads : Request.ofLine? text = some request) (log : List Ticked)
    (outcome : Except ServiceError Json) (observed : Observed s request log outcome after)
    (branch : Branch (s.observe request) (log, outcome, after)) :
    Exchange.Proper ⟨.line text, s, log, after.pending.map .event ++ [.response request.id outcome],
      after.takeEvents.2⟩ where
  blank := by
    rintro _ ⟨⟩ blank
    rw [Request.ofLine?_blank text blank] at reads
    cases reads
  answered := by
    rintro _ ⟨⟩ -
    have told : after.pending = s.pending ++ emissions log := observed.signals
    refine ⟨rfl, outcome, by simp [Exchange.told, Request.idOf, reads, told], ?_⟩
    intro other reading ordinary
    obtain rfl := Option.some.inj (reads.symm.trans reading)
    exact observed.gate ordinary
  polled := by rintro ⟨⟩
  closed := by
    rintro _ ⟨⟩ closed
    obtain ⟨result, still, observes, same⟩ := observe_closed s closed request
    -- Nothing is drawn, so the branch is the one result that there is.
    have answers : s.answer request = pure (result, still) := by
      rw [← observe_answer, observes, map_pure]
    rw [observes] at branch
    obtain ⟨rfl, rfl, rfl⟩ := Draws.branch_pure_triple branch
    refine ⟨rfl, ?_, ?_⟩
    · simp only [handleLine_request s text request reads, answers, pure_bind, takeEvents_eq]
    · simp only [takeEvents_eq, same]
      rfl
  greeted := by
    have greets : Exchange.Greets ⟨.line text, s, log,
        after.pending.map .event ++ [.response request.id outcome], after.takeEvents.2⟩ ↔
          request.command = "handshake" ∧ ∃ result, outcome = .ok result := by
      constructor
      · rintro ⟨_, other, result, ⟨⟩, reading, handshake, member⟩
        obtain rfl := Option.some.inj (reads.symm.trans reading)
        exact ⟨handshake, result, by simpa [eq_comm] using member⟩
      · rintro ⟨handshake, result, rfl⟩
        exact ⟨text, request, result, rfl, reads, handshake, by simp⟩
    rw [greets]
    exact observed.greeted

theorem proper_polled (s : Service) (simulation : Simulation) (log : List Ticked)
    (sent : simulation.bus = s.simulation.bus.queue (emissions log)) :
    Exchange.Proper ⟨.poll, s, log, simulation.bus.signals.map .event,
      { s with simulation := simulation.takeSignals.2 }⟩ where
  blank := by rintro _ ⟨⟩
  answered := by rintro _ ⟨⟩
  polled _ := ⟨rfl, by rw [sent]; rfl⟩
  closed := by rintro _ ⟨⟩
  greeted := by
    have silent : ¬ Exchange.Greets ⟨.poll, s, log, simulation.bus.signals.map .event,
        { s with simulation := simulation.takeSignals.2 }⟩ := by
      rintro ⟨_, _, _, ⟨⟩, -⟩
    exact (or_iff_left silent).symm

theorem exchange_proper (s : Service) (hosting : s.simulation.Hosting) (input : Input)
    (log : List Ticked) (written : List ServiceLine) (after : Service)
    (branch : Branch (s.exchange input) (log, written, after)) :
    Exchange.Proper ⟨input, s, log, written, after⟩ ∧ after.simulation.Hosting := by
  unfold exchange at branch
  split at branch
  · next text =>
      split at branch
      · next reads =>
          cases blank : Text.isBlank text with
          | true =>
              obtain ⟨handles, proper⟩ := proper_blank s text blank
              rw [handles, pure_bind] at branch
              obtain ⟨rfl, rfl, rfl⟩ := Draws.branch_pure_triple branch
              exact ⟨proper, hosting⟩
          | false =>
              obtain ⟨handles, proper⟩ := proper_garbled s text blank reads
              rw [handles, pure_bind] at branch
              obtain ⟨rfl, rfl, rfl⟩ := Draws.branch_pure_triple branch
              exact ⟨proper, hosting⟩
      · next request reads =>
          obtain ⟨⟨results, outcome, middle⟩, observes, answered⟩ :=
            (branch_bind_iff _ _ _).mp branch
          obtain ⟨rfl, rfl, rfl⟩ := Draws.branch_pure_triple answered
          have observed := observe_observed s hosting request log outcome middle observes
          exact ⟨proper_requested s middle text request reads log outcome observed observes,
            observed.hosting⟩
  · obtain ⟨⟨ticked, simulation⟩, ticks, answered⟩ := (branch_bind_iff _ _ _).mp branch
    simp only [takeEvents_eq] at answered
    obtain ⟨rfl, rfl, rfl⟩ := Draws.branch_pure_triple answered
    exact ⟨proper_polled s simulation log (Simulation.tick_emits _ _ hosting log ticks),
      Simulation.tick_hosting s.simulation simulation hosting log ticks⟩

end Service

namespace Exchange

variable {e : Exchange}

theorem events_told : ServiceLine.events e.told = e.before.pending ++ emissions e.log := by
  simp [ServiceLine.events, told, List.filterMap_map]

theorem proper_conserves (proper : e.Proper) :
    e.before.pending ++ emissions e.log = ServiceLine.events e.written ++ e.after.pending := by
  cases came : e.input with
  | line text =>
      cases blank : Text.isBlank text with
      | true =>
          obtain ⟨log, written, after⟩ := proper.blank text came blank
          simp [log, written, after, ServiceLine.events]
      | false =>
          obtain ⟨none, outcome, written, -⟩ := proper.answered text came blank
          rw [none, List.append_nil, ← events_told, written]
          simp [ServiceLine.events]
  | poll =>
      obtain ⟨none, written⟩ := proper.polled came
      rw [none, List.append_nil, ← events_told, written]

theorem proper_pending (proper : e.Proper) (none : e.before.pending = []) :
    e.after.pending = [] := by
  cases came : e.input with
  | line text =>
      cases blank : Text.isBlank text with
      | true => exact (proper.blank text came blank).2.2 ▸ none
      | false => exact (proper.answered text came blank).1
  | poll => exact (proper.polled came).1

end Exchange

namespace Service

def converse : List Input → Service → Draws (List Exchange × Service)
  | [], s => pure ([], s)
  | input :: rest, s => do
      let (log, written, after) ← s.exchange input
      let (history, last) ← converse rest after
      pure (⟨input, s, log, written, after⟩ :: history, last)

/-- Proper exchanges that follow on each other, from one service to another. -/
def Session : Service → List Exchange → Service → Prop
  | s, [], last => last = s
  | s, e :: rest, last => e.before = s ∧ e.Proper ∧ Session e.after rest last

theorem converse_session (inputs : List Input) (s last : Service) (hosting : s.simulation.Hosting)
    (history : List Exchange) (branch : Branch (converse inputs s) (history, last)) :
    Session s history last ∧ history.map Exchange.input = inputs := by
  induction inputs generalizing s history with
  | nil =>
      obtain ⟨rfl, rfl⟩ := Draws.branch_pure_pair branch
      exact ⟨rfl, rfl⟩
  | cons input rest ih =>
      obtain ⟨⟨log, written, after⟩, here, others⟩ := (branch_bind_iff _ _ _).mp branch
      obtain ⟨⟨later, final⟩, continued, answered⟩ := (branch_bind_iff _ _ _).mp others
      obtain ⟨rfl, rfl⟩ := Draws.branch_pure_pair answered
      obtain ⟨proper, stays⟩ := exchange_proper s hosting input log written after here
      obtain ⟨session, inputs⟩ := ih after stays later continued
      exact ⟨⟨rfl, proper, session⟩, by simp [inputs]⟩

section Sessions

variable {s last : Service} {history : List Exchange}

theorem session_proper (session : Session s history last) : ∀ e ∈ history, e.Proper := by
  induction history generalizing s with
  | nil => simp
  | cons e rest ih =>
      obtain ⟨-, proper, later⟩ := session
      exact List.forall_mem_cons.mpr ⟨proper, ih later⟩

/-- Over a session, the signals that waited at first and those that were sent are told in
this order, but for those that wait in the end. -/
theorem session_conserves (session : Session s history last) :
    s.pending ++ emissions (history.flatMap Exchange.log) =
      ServiceLine.events (history.flatMap Exchange.written) ++ last.pending := by
  induction history generalizing s with
  | nil =>
      obtain rfl : last = s := session
      simp [ServiceLine.events]
  | cons e rest ih =>
      obtain ⟨rfl, proper, later⟩ := session
      -- What waits after the first exchange is what waits before the others.
      have here := Exchange.proper_conserves proper
      rw [List.flatMap_cons, List.flatMap_cons, Simulation.emissions_append,
        ← List.append_assoc, here, List.append_assoc, ih later, ← List.append_assoc]
      simp [ServiceLine.events]

theorem session_pending (session : Session s history last) (none : s.pending = []) :
    last.pending = [] ∧ ∀ e ∈ history, e.before.pending = [] := by
  induction history generalizing s with
  | nil =>
      obtain rfl : last = s := session
      exact ⟨none, by simp⟩
  | cons e rest ih =>
      obtain ⟨rfl, proper, later⟩ := session
      obtain ⟨final, others⟩ := ih later (Exchange.proper_pending proper none)
      exact ⟨final, List.forall_mem_cons.mpr ⟨none, others⟩⟩

theorem session_greeted (session : Session s history last) (earlier later : List Exchange)
    (e : Exchange) (split : history = earlier ++ e :: later) :
    e.before.greeted = true ↔ s.greeted = true ∨ ∃ x ∈ earlier, x.Greets := by
  induction earlier generalizing s history with
  | nil =>
      subst split
      obtain ⟨rfl, -, -⟩ := session
      simp
  | cons first earlier ih =>
      subst split
      obtain ⟨rfl, proper, rest⟩ := session
      rw [ih rest rfl, proper.greeted, or_assoc]
      simp

end Sessions

/-- A service that starts with any simulation that can be reached has proper sessions only. -/
theorem reached_session (simulation : Simulation) (reached : Simulation.Reached simulation)
    (session : String) (inputs : List Input) (history : List Exchange) (last : Service)
    (branch : Branch (converse inputs (start simulation session)) (history, last)) :
    Session (start simulation session) history last :=
  (converse_session inputs (start simulation session) last
    (Simulation.reached_hosting simulation reached) history branch).1

/-- Lines and polls, in any order, make a proper session. Every line that is not blank gets one
response, behind one event for each signal that was sent meanwhile; what was sent over the
session, by all answers of the hosted objects, is told once and in order. The session
opens with the first handshake that succeeds, and never closes. -/
theorem session_protocol (simulation : Simulation) (hosting : simulation.Hosting) (session : String)
    (inputs : List Input) :
    (∀ s text, Prod.snd <$> exchange s (.line text) = s.handleLine text) ∧
    (∀ s, (fun reply => (reply.1.length, reply.2)) <$> exchange s .poll = s.poll) ∧
    ∀ history last, Branch (converse inputs (start simulation session)) (history, last) →
      history.map Exchange.input = inputs ∧ (∀ e ∈ history, e.Proper) ∧
      simulation.bus.signals ++ emissions (history.flatMap Exchange.log) =
        ServiceLine.events (history.flatMap Exchange.written) ++ last.pending ∧
      (simulation.bus.signals = [] → last.pending = [] ∧ ∀ e ∈ history, e.before.pending = []) ∧
      ∀ earlier e later, history = earlier ++ e :: later →
        (e.before.greeted = true ↔ ∃ x ∈ earlier, x.Greets) := by
  refine ⟨exchange_handleLine, exchange_poll, fun history last branch => ?_⟩
  obtain ⟨proper, came⟩ := converse_session inputs _ last hosting history branch
  refine ⟨came, session_proper proper, session_conserves proper, session_pending proper, ?_⟩
  intro earlier e later split
  simpa [start] using session_greeted proper earlier later e split

/-! A conversation about the box. -/

def greetingLine : String :=
  braced ("\"id\": 0, \"command\": \"handshake\", \"params\": " ++
    braced "\"client\": \"box\", \"protocol_version\": \"1.0.0\"")

def greetingRequest : Request where
  id := .integer 0
  command := "handshake"
  params := .object [("client", .string "box"), ("protocol_version", .string "1.0.0")]

set_option maxRecDepth 10000 in
theorem greeting_read : Request.ofLine? greetingLine = some greetingRequest := by
  rw [Request.ofLine?, JsonText.parse?_ofRead _ ?cs ?parts ?chars ?reads]
  case chars =>
    simp only [greetingLine, braced, String.toList_append]
    repeat rewrite [String.toList_ofList]
    rfl
  case reads => rfl
  rfl

def applesLine : String := boxLine (braced "\"apples\": 3")

theorem box_protocol :
    emptyBox.simulation.Hosting ∧
    ∃ history last,
      Branch (converse [.line applesLine, .line greetingLine, .line applesLine, .poll]
        (start emptyBox.simulation "session")) (history, last) ∧
      history.map (·.before.greeted) = [false, false, true, true] ∧
      history.map (·.written.length) = [1, 1, 2, 0] ∧
      emissions (history.flatMap Exchange.log) =
        ServiceLine.events (history.flatMap Exchange.written) := by
  have hosting : emptyBox.simulation.Hosting := by
    simp [Simulation.Hosting, emptyBox, boxService, boxObject]
  obtain ⟨history, last, played, greeted, written⟩ : ∃ history last,
      converse [.line applesLine, .line greetingLine, .line applesLine, .poll]
        (start emptyBox.simulation "session") = pure (history, last) ∧
      history.map (·.before.greeted) = [false, false, true, true] ∧
      history.map (·.written.length) = [1, 1, 2, 0] := by
    simp only [converse, exchange_request _ applesLine _ apples_read,
      exchange_request _ _ _ greeting_read]
    exact ⟨_, _, rfl, rfl, rfl⟩
  have branch : Branch (converse [.line applesLine, .line greetingLine, .line applesLine, .poll]
      (start emptyBox.simulation "session")) (history, last) := by
    rw [played]
    exact .done _
  obtain ⟨-, -, session⟩ := session_protocol emptyBox.simulation hosting "session"
    [.line applesLine, .line greetingLine, .line applesLine, .poll]
  obtain ⟨-, -, told, pending, -⟩ := session history last branch
  rw [(pending rfl).1, List.append_nil] at told
  exact ⟨hosting, history, last, branch, greeted, written, told⟩

end Service

end SimBus
