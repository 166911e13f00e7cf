import SimBus.Bus
import SimBus.Bus.Error
/-!
A simulated object: a machine with its data that answers method calls, serves
its properties, and can be registered on a bus. An operation yields its answer
together with the object and the bus afterwards.
-/

namespace SimBus

structure Object where
  machine : Machine
  env : Environment
  known : InterfaceSet
  builtins : BuiltinTable
  /-- How many triggers it has handled since it was created or reset. -/
  activity : Nat
  registered : Bool
  held : List String

namespace Object

def create (definition : Definition) (known : InterfaceSet) (builtins : BuiltinTable) :
    Eval Object := do
  let env ← definition.initialData builtins
  pure
    { machine := Machine.new definition
      env := env
      known := known
      builtins := builtins
      activity := 0
      registered := false
      held := [] }

def definition (o : Object) : Definition := o.machine.definition

def path (o : Object) : String := o.definition.path

def stateName (o : Object) : String := o.machine.stateName

def reset (o : Object) : Object :=
  { o with
    machine := Machine.new o.definition
    env := o.env.reset
    activity := 0 }

def implemented? (o : Object) (interface : String) : Option Interface :=
  if interface ∈ o.definition.interfaces then o.known.find? interface else none

def checkArguments (expected : Ty) (arguments : List Value) : Except BusError Unit :=
  let found := (Value.tuple arguments).ty
  if found = expected then .ok () else .error (.argumentTypes expected found)

def property (o : Object) (interface name : String) : Except BusError (Interface × Property) :=
  match o.implemented? interface with
  | none => .error (.unknownInterface interface)
  | some i =>
      match i.property? name with
      | none => .error (.unknownProperty interface name)
      | some p => .ok (i, p)

def propertyValue (o : Object) (p : Property) : Except BusError Value :=
  match o.env.lookup p.name with
  | .ok value => .ok value
  | .error _ => .error (.withoutData p.name)

/-- The readable properties of an interface that have a variable behind them. -/
def readableValues (o : Object) (i : Interface) : List (String × Value) :=
  (i.properties.filter (·.access.readable)).filterMap fun p =>
    match o.env.lookup p.name with
    | .ok value => some (p.name, value)
    | .error _ => none

def exposedValues (o : Object) : List (String × String × Value) :=
  (o.definition.interfaces.filterMap o.known.find?).flatMap fun i =>
    (o.readableValues i).map fun entry => (i.name, entry.1, entry.2)

def propertyEntry (name : String) (value : Value) : Value × Value := (.string name, .variant value)

def addChange (interface : String) (entry : Value × Value) :
    List (String × List (Value × Value)) → List (String × List (Value × Value))
  | [] => [(interface, [entry])]
  | (other, entries) :: rest =>
      if other = interface then (other, entries ++ [entry]) :: rest
      else (other, entries) :: addChange interface entry rest

/-- The exposed values that differ, grouped by interface. -/
def changes : (before after : List (String × String × Value)) →
    (sofar : List (String × List (Value × Value))) → List (String × List (Value × Value))
  | (interface, name, old) :: before, (_, _, new) :: after, sofar =>
      if old == new then changes before after sofar
      else changes before after (addChange interface (propertyEntry name new) sofar)
  | _, _, sofar => sofar

def changeSignal (interface : String) (entries : List (Value × Value)) : Effect :=
  .signal Interface.propertiesName "PropertiesChanged"
    (.tuple [.string interface, .dict .string .variant entries, .array .string []])

/-- The signals for all that differs from the object before. -/
def announcements (before after : Object) : Output :=
  (changes before.exposedValues after.exposedValues []).map fun change =>
    changeSignal change.1 change.2

/-- Sends the signals of an output out on the bus, if the object is on it. -/
def publish (o : Object) (output : Output) (bus : Bus) : Bus :=
  if o.registered then
    output.signals.foldl (fun bus s => bus.emit ⟨o.path, s.1, s.2.1, s.2.2⟩) bus
  else bus

/-- Fires a trigger. A firing that ran to its end is followed by what it
changed about the properties. -/
def fire (o : Object) (bus : Bus) (trigger : Trigger) (arguments : List Value) :
    Draws (Except BusError Output × Object × Bus) := do
  let (result, machine, env) ← o.machine.fire o.builtins o.env trigger arguments
  let after := { o with machine := machine, env := env }
  match result with
  | .error e => pure (.error (.machine e), after, bus)
  | .ok firing =>
      let after := { after with activity := after.activity + 1 }
      let output := if firing.completed then firing.output ++ announcements o after
        else firing.output
      pure (.ok output, after, after.publish output bus)

def callMethod (o : Object) (bus : Bus) (call : Call) :
    Draws (Except BusError Output × Object × Bus) :=
  match o.implemented? call.interface with
  | none => pure (.error (.notImplemented o.path call.interface), o, bus)
  | some i =>
      match i.method? call.member with
      | none => pure (.error (.unknownMethod call.interface call.member), o, bus)
      | some m =>
          match checkArguments m.inputType call.arguments with
          | .error e => pure (.error e, o, bus)
          | .ok _ => o.fire bus (.method call.interface call.member) call.arguments

def getProperty (o : Object) (interface name : String) : Except BusError Output := do
  let (i, p) ← o.property interface name
  if p.access.readable then
    let value ← o.propertyValue p
    pure [.reply (.tuple [.variant value])]
  else .error (.writeOnly i.name p.name)

def getAllProperties (o : Object) (interface : String) : Except BusError Output :=
  match o.implemented? interface with
  | none => .error (.unknownInterface interface)
  | some i =>
      .ok [.reply (.tuple [.dict .string .variant
        ((o.readableValues i).map fun entry => propertyEntry entry.1 entry.2)])]

def assignProperty (o : Object) (bus : Bus) (p : Property) (value : Value) :
    Except BusError Output × Object × Bus :=
  match o.propertyValue p with
  | .error e => (.error e, o, bus)
  | .ok _ =>
      match o.env.assign p.name value with
      | .error e => (.error (.notAssignable e), o, bus)
      | .ok env =>
          let after := { o with env := env, activity := o.activity + 1 }
          let output := announcements o after
          (.ok output, after, after.publish output bus)

def unwrap : Value → Value
  | .variant inner => inner
  | other => other

/-- A write is acknowledged unless it ended in an error. -/
def acknowledge (output : Output) : Output :=
  if output.error?.isSome then output else output ++ [.reply Value.unit]

/-- Writes a property: a transition for the write is fired if the current state
has one, or else the variable is assigned. -/
def setProperty (o : Object) (bus : Bus) (interface name : String) (value : Value) :
    Draws (Except BusError Output × Object × Bus) :=
  match o.property interface name with
  | .error e => pure (.error e, o, bus)
  | .ok (i, p) =>
      if !p.access.writable then pure (.error (.readOnly i.name p.name), o, bus)
      else if value.ty ≠ p.ty then pure (.error (.propertyType p.name p.ty value.ty), o, bus)
      else do
        let trigger : Trigger := .property i.name p.name
        let (result, after, bus) ←
          if o.machine.accepts trigger then o.fire bus trigger [value]
          else pure (o.assignProperty bus p value)
        pure (result.map acknowledge, after, bus)

def callProperties (o : Object) (bus : Bus) (call : Call) :
    Draws (Except BusError Output × Object × Bus) :=
  let text (value : Value) : String := value.text?.getD ""
  match call.member with
  | "Get" =>
      match checkArguments (.tuple [.string, .string]) call.arguments, call.arguments with
      | .error e, _ => pure (.error e, o, bus)
      | .ok _, [interface, name] => pure (o.getProperty (text interface) (text name), o, bus)
      | .ok _, _ => pure (.error (.unknownMethod call.interface call.member), o, bus)
  | "GetAll" =>
      match checkArguments (.tuple [.string]) call.arguments, call.arguments with
      | .error e, _ => pure (.error e, o, bus)
      | .ok _, [interface] => pure (o.getAllProperties (text interface), o, bus)
      | .ok _, _ => pure (.error (.unknownMethod call.interface call.member), o, bus)
  | "Set" =>
      match checkArguments (.tuple [.string, .string, .variant]) call.arguments,
        call.arguments with
      | .error e, _ => pure (.error e, o, bus)
      | .ok _, [interface, name, value] =>
          o.setProperty bus (text interface) (text name) (unwrap value)
      | .ok _, _ => pure (.error (.unknownMethod call.interface call.member), o, bus)
  | other => pure (.error (.unknownMethod Interface.propertiesName other), o, bus)

/-- Answers a call: the effects it has, or why it is refused, and the object and
the bus afterwards. -/
def dispatch (o : Object) (bus : Bus) (call : Call) :
    Draws (Except BusError Output × Object × Bus) :=
  if call.interface = Interface.propertiesName then o.callProperties bus call
  else o.callMethod bus call

def tick (o : Object) (bus : Bus) : Draws (Option (Except BusError Output) × Object × Bus) :=
  if o.machine.accepts .arbitrary then do
    let (result, after, bus) ← o.fire bus .arbitrary []
    pure (some result, after, bus)
  else pure (none, o, bus)

/-- Claims names one by one. On a refusal it tells the error and the names that
were claimed before. -/
def claimNames (owner : String) :
    List String → (claimed : List String) → Bus →
      Except (RegistrationError × List String) (List String) × Bus
  | [], claimed, bus => (.ok claimed, bus)
  | name :: rest, claimed, bus =>
      match bus.requestName name owner with
      | .error e => (.error (e, claimed), bus)
      | .ok bus => claimNames owner rest (claimed ++ [name]) bus

/-- Claims the path and the names of the object. After a refusal the names
claimed so far and the path are released. -/
def register (o : Object) (bus : Bus) : Except RegistrationError Object × Bus :=
  if o.registered then (.error (.alreadyRegistered o.path), bus)
  else match bus.registerObject o.path (o.definition.interfaces ++ [Interface.propertiesName]) with
    | .error e => (.error e, bus)
    | .ok bus =>
        match claimNames o.path o.definition.names [] bus with
        | (.ok held, bus) => (.ok { o with registered := true, held := held }, bus)
        | (.error (e, claimed), bus) =>
            (.error e, (bus.releaseNames claimed).unregisterObject o.path)

def unregister (o : Object) (bus : Bus) : Object × Bus :=
  if o.registered then
    ({ o with registered := false, held := [] }, (bus.releaseNames o.held).unregisterObject o.path)
  else (o, bus)

end Object

end SimBus
