import SimBus.Bus.Error
import SimBus.Value.Transport
/-!
Calls with arguments in JSON. The types to read the arguments as are found in
the description of the interface, whichever object the call is for.
-/

namespace SimBus.Call

def readAll : List Json → List Ty → Except BusError (List Value)
  | json :: rest, ty :: types =>
      match Value.ofJson json ty with
      | .error e => .error (.unreadableArgument e)
      | .ok value => (readAll rest types).map (value :: ·)
  | _, _ => .ok []

def readArguments (arguments : List Json) (types : List Ty) : Except BusError (List Value) :=
  if arguments.length = types.length then readAll arguments types
  else .error (.argumentCount types.length arguments.length)

/-- A variant is written as an object with its signature beside its value. -/
def isTagged (json : Json) : Bool :=
  (json.member? "signature").isSome && (json.member? "value").isSome

/-- Reads the new value of a property: a variant, or else a value of the type
of the property. -/
def readWritten (known : InterfaceSet) (interface property : String) (json : Json) :
    Except BusError Value :=
  let read (ty : Ty) (wrap : Value → Value) : Except BusError Value :=
    match Value.ofJson json ty with
    | .ok value => .ok (wrap value)
    | .error e => .error (.unreadableArgument e)
  if isTagged json then read .variant id
  else match (known.find? interface).bind (·.property? property) with
    | none => .error (.unknownProperty interface property)
    | some p => read p.ty .variant

def readWrite (known : InterfaceSet) : List Json → Except BusError (List Value)
  | [interface, property, json] =>
      match interface.text?, property.text? with
      | some interface, some property =>
          (readWritten known interface property json).map fun value =>
            [.string interface, .string property, value]
      | _, _ => .error .writeNames
  | arguments => .error (.writeCount arguments.length)

def readPropertyCall (known : InterfaceSet) (member : String) (arguments : List Json) :
    Except BusError (List Value) :=
  match member with
  | "Get" => readArguments arguments [.string, .string]
  | "GetAll" => readArguments arguments [.string]
  | "Set" => readWrite known arguments
  | other => .error (.unknownMethod Interface.propertiesName other)

def readMethodCall (known : InterfaceSet) (interface member : String) (arguments : List Json) :
    Except BusError (List Value) :=
  match known.find? interface with
  | none => .error (.unknownInterface interface)
  | some i =>
      match i.method? member with
      | none => .error (.unknownMethod interface member)
      | some m => readArguments arguments (Argument.types m.inputs)

def ofJson (known : InterfaceSet) (interface member : String) (arguments : List Json) :
    Except BusError Call :=
  let values :=
    if interface = Interface.propertiesName then readPropertyCall known member arguments
    else readMethodCall known interface member arguments
  values.map fun values => ⟨interface, member, values⟩

end SimBus.Call
