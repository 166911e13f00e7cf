import SimBus.Bus
import SimBus.Bus.Error
import SimBus.Json.Record
/-!
What goes over the line of a control session: requests in one direction,
responses and events in the other, each as one line of JSON.
-/

namespace SimBus

structure Request where
  /-- The sender's own mark, which the response carries back. -/
  id : Json
  command : String
  params : Json

def Request.ofLine? (line : String) : Option Request := do
  let datum? := JsonText.toJson? (JsonText.depthLimit - 1)
  match ← JsonText.fields? ["id", "command", "params"] (← JsonText.parse? line) with
  | [some id, some command, params] =>
      some ⟨← datum? id, ← JsonText.string? command, ← JsonText.orElse? datum? .null params⟩
  | _ => none

inductive ServiceError where
  | notRequest
  | invalidParameter (name : String)
  | unsupportedCommand (command : String)
  | handshakeRequired
  | unsupportedVersion (requested : String)
  | bus (error : BusError)

def protocolVersion : String := "1.0.0"

namespace ServiceError

def code : ServiceError → String
  | notRequest => "parse_error"
  | invalidParameter _ => "invalid_params"
  | unsupportedCommand _ => "unsupported_command"
  | handshakeRequired | unsupportedVersion _ => "protocol_error"
  | bus _ => "bus_error"

def message : ServiceError → String
  | notRequest => "the line is not a request"
  | invalidParameter name => "missing or invalid parameter: " ++ name
  | unsupportedCommand command => "Command '" ++ command ++ "' is not supported"
  | handshakeRequired => "handshake required before issuing commands"
  | unsupportedVersion requested =>
      "unsupported protocol version: expected " ++ protocolVersion ++ ", got " ++ requested
  | bus error => error.message

/-- An error on the bus also tells its name. -/
def toJson (e : ServiceError) : Json :=
  let members := [("code", .string e.code), ("message", .string e.message)]
  match e with
  | bus error =>
      Json.ofMembers (members ++ [("details", Json.ofMembers [("name", .string error.name)])])
  | _ => Json.ofMembers members

end ServiceError

inductive ServiceLine where
  | event (signal : Emission)
  | response (id : Json) (outcome : Except ServiceError Json)

/-- The datum on a line. An event tells when it was written. -/
def ServiceLine.toJson (timestamp : String) : ServiceLine → Json
  | event signal =>
      Json.ofMembers
        [("event", .string "signal"), ("timestamp", .string timestamp),
          ("path", .string signal.path), ("interface", .string signal.interface),
          ("member", .string signal.member), ("signature", .string signal.signature),
          ("body", signal.body)]
  | response id (.ok result) => Json.ofMembers [("id", id), ("result", result)]
  | response id (.error e) => Json.ofMembers [("id", id), ("error", e.toJson)]

end SimBus
