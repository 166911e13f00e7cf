import SimBus.Ty.Signature
/-!
Interfaces: the methods, signals and properties that objects may offer, with
their types, and sets of them by name.
-/

namespace SimBus

structure Argument where
  name : Option String
  ty : Ty
  deriving DecidableEq

structure Method where
  name : String
  inputs : List Argument
  outputs : List Argument
  deriving DecidableEq

structure Signal where
  name : String
  arguments : List Argument
  deriving DecidableEq

inductive Access where
  | read | write | readWrite
  deriving DecidableEq, Repr

namespace Access

def readable : Access → Bool
  | read | readWrite => true
  | write => false

def writable : Access → Bool
  | write | readWrite => true
  | read => false

def ofName? : String → Option Access
  | "read" => some read
  | "write" => some write
  | "readwrite" => some readWrite
  | _ => none

end Access

structure Property where
  name : String
  ty : Ty
  access : Access
  deriving DecidableEq

structure Interface where
  name : String
  methods : List Method
  signals : List Signal
  properties : List Property
  deriving DecidableEq

def Argument.types (arguments : List Argument) : List Ty := arguments.map Argument.ty

namespace Method

def inputType (m : Method) : Ty := .tuple (Argument.types m.inputs)

def outputType (m : Method) : Ty := .tuple (Argument.types m.outputs)

end Method

def Signal.payloadType (s : Signal) : Ty := .tuple (Argument.types s.arguments)

namespace Interface

def method? (i : Interface) (name : String) : Option Method := i.methods.find? (·.name == name)

def signal? (i : Interface) (name : String) : Option Signal := i.signals.find? (·.name == name)

def property? (i : Interface) (name : String) : Option Property :=
  i.properties.find? (·.name == name)

def propertiesName : String := "org.freedesktop.DBus.Properties"

end Interface

structure InterfaceSet where
  interfaces : List Interface
  deriving DecidableEq

namespace InterfaceSet

def empty : InterfaceSet := ⟨[]⟩

def find? (s : InterfaceSet) (name : String) : Option Interface :=
  s.interfaces.find? (·.name == name)

end InterfaceSet

inductive DescriptionError where
  | malformed
  | missingAttribute (line : Nat) (tag key : String)
  | unknownAccess (line : Nat) (mode : String)
  | signature (line : Nat) (error : SignatureError)
  | duplicateInterface (name : String)
  | notDescription

namespace DescriptionError

def message : DescriptionError → String
  | malformed => "the document is not well-formed"
  | missingAttribute line tag key =>
      "introspection line " ++ toString line ++ ": <" ++ tag ++ "> is missing the '" ++ key ++
        "' attribute"
  | unknownAccess line mode =>
      "introspection line " ++ toString line ++ ": unknown property access '" ++ mode ++ "'"
  | signature line error => "introspection line " ++ toString line ++ ": " ++ error.message
  | duplicateInterface name => "interface '" ++ name ++ "' is described more than once"
  | notDescription => "invalid JSON interface description"

end DescriptionError

namespace InterfaceSet

/-- Adds an interface, unless there is one of its name. -/
def insert (s : InterfaceSet) (i : Interface) : Except DescriptionError InterfaceSet :=
  match s.find? i.name with
  | some _ => .error (.duplicateInterface i.name)
  | none => .ok ⟨s.interfaces ++ [i]⟩

def insertAll : List Interface → InterfaceSet → Except DescriptionError InterfaceSet
  | [], s => .ok s
  | i :: rest, s => do insertAll rest (← s.insert i)

def merge (s other : InterfaceSet) : Except DescriptionError InterfaceSet :=
  insertAll other.interfaces s

end InterfaceSet

end SimBus
