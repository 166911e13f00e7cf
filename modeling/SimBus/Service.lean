import SimBus.Call.Transport
import SimBus.Service.Request
import SimBus.Simulation
import SimBus.Text.WhiteSpace
/-!
A control session for a simulation. Every request gets one response, behind an
event for each signal that was emitted meanwhile. Before the first successful
handshake all other requests are refused.
-/

namespace SimBus

structure Service where
  simulation : Simulation
  session : String
  greeted : Bool

namespace Service

def version : String := "0.1.0"

def start (simulation : Simulation) (session : String) : Service := ⟨simulation, session, false⟩

def textParameter (params : Json) (name : String) : Except ServiceError String :=
  match (params.member? name).bind Json.text? with
  | some text => .ok text
  | none => .error (.invalidParameter name)

def handshakeClient (params : Json) : Except ServiceError String := do
  let client ← textParameter params "client"
  let requested ← textParameter params "protocol_version"
  if requested = protocolVersion then .ok client else .error (.unsupportedVersion requested)

def welcome (s : Service) (client : String) : Json :=
  Json.ofMembers
    [("protocol_version", .string protocolVersion), ("session", .string s.session),
      ("simulator", Json.ofMembers
        [("version", .string version), ("client", .string client),
          ("seed", .integer s.simulation.seed.toNat)])]

/-- The arguments of a call are a list, and none if they are left out. -/
def callArguments (params : Json) : Except ServiceError (List Json) :=
  match params.member? "args" with
  | none | some .null => .ok []
  | some (.array items) => .ok items
  | some _ => .error (.invalidParameter "args")

def requestedCall (known : InterfaceSet) (params : Json) : Except ServiceError (String × Call) := do
  let path ← textParameter params "path"
  let interface ← textParameter params "interface"
  let member ← textParameter params "member"
  let arguments ← callArguments params
  match Call.ofJson known interface member arguments with
  | .ok call => .ok (path, call)
  | .error e => .error (.bus e)

def raised? (output : Output) : Option BusError :=
  output.error?.map fun error => .raised error.1 error.2

def callResult (output : Output) : Except ServiceError Json :=
  match raised? output with
  | some error => .error (.bus error)
  | none =>
      let reply := match output.reply? with
        | some payload => payload.toJson
        | none => .null
      .ok (Json.ofMembers [("reply", reply)])

def tickedError? : Except BusError Output → Option BusError
  | .ok output => raised? output
  | .error e => some e

/-- What a tick did to one object: the state it is in, and the error if there
was one. -/
def tickedJson (s : Simulation) (ticked : Simulation.Ticked) : Json :=
  let state := match s.object? ticked.1 with
    | some object => .string object.stateName
    | none => .null
  let members := [("path", .string ticked.1), ("state", state)]
  match tickedError? ticked.2 with
  | some e => Json.ofMembers (members ++
      [("error", Json.ofMembers [("name", .string e.name), ("message", .string e.message)])])
  | none => Json.ofMembers members

def texts (items : List String) : Json := .array (items.map .string)

def objectJson (object : Object) : Json :=
  Json.ofMembers
    [("path", .string object.path), ("state", .string object.stateName),
      ("states", texts object.definition.states),
      ("interfaces", texts object.definition.interfaces),
      ("names", texts object.definition.names), ("activity", .integer object.activity)]

def activityJson (s : Simulation) : Json := Json.ofMembers [("activity", .integer s.activity)]

def call (s : Service) (params : Json) : Draws (Except ServiceError Json × Service) :=
  match requestedCall s.simulation.known params with
  | .error e => pure (.error e, s)
  | .ok (path, call) => do
      let (result, after) ← s.simulation.call path call
      match result with
      | .error e => pure (.error (.bus e), { s with simulation := after })
      | .ok output => pure (callResult output, { s with simulation := after })

def tick (s : Service) : Draws (Except ServiceError Json × Service) := do
  let (ticked, after) ← s.simulation.tick
  pure (.ok (Json.ofMembers [("fired", .array (ticked.map (tickedJson after)))]),
    { s with simulation := after })

def command (s : Service) (name : String) (params : Json) :
    Draws (Except ServiceError Json × Service) :=
  match name with
  | "call" => s.call params
  | "tick" => s.tick
  | "reset" =>
      let after := s.simulation.reset
      pure (.ok (activityJson after), { s with simulation := after })
  | "objects" =>
      pure (.ok (Json.ofMembers [("objects", .array (s.simulation.objects.map objectJson))]), s)
  | "activity" => pure (.ok (activityJson s.simulation), s)
  | other => pure (.error (.unsupportedCommand other), s)

def answer (s : Service) (request : Request) : Draws (Except ServiceError Json × Service) :=
  if request.command = "handshake" then
    match handshakeClient request.params with
    | .ok client => pure (.ok (s.welcome client), { s with greeted := true })
    | .error e => pure (.error e, s)
  else if s.greeted then s.command request.command request.params
  else pure (.error .handshakeRequired, s)

def takeEvents (s : Service) : List ServiceLine × Service :=
  let (signals, after) := s.simulation.takeSignals
  (signals.map .event, { s with simulation := after })

/-- Handles one line and yields the lines to write. A blank line is ignored. -/
def handleLine (s : Service) (line : String) : Draws (List ServiceLine × Service) :=
  if Text.isBlank line then pure ([], s)
  else match Request.ofLine? line with
    | none =>
        let (events, after) := s.takeEvents
        pure (events ++ [.response .null (.error .notRequest)], after)
    | some request => do
        let (outcome, after) ← s.answer request
        let (events, after) := after.takeEvents
        pure (events ++ [.response request.id outcome], after)

def handleLines : List String → Service → Draws (List ServiceLine × Service)
  | [], s => pure ([], s)
  | line :: rest, s => do
      let (written, s) ← s.handleLine line
      let (others, s) ← handleLines rest s
      pure (written ++ others, s)

def handle (s : Service) (text : String) : Draws (List ServiceLine × Service) :=
  handleLines (Text.lines text) s

/-- Ticks the simulation without a request. The number is how many objects had
a transition to fire. -/
def poll (s : Service) : Draws (Nat × List ServiceLine × Service) := do
  let (ticked, after) ← s.simulation.tick
  let (events, after) := takeEvents { s with simulation := after }
  pure (ticked.length, events, after)

end Service

end SimBus
