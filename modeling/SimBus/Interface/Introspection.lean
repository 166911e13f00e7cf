import SimBus.Interface
import SimBus.Xml.Reader
/-!
Descriptions of interfaces in introspection documents. An `interface` element
counts wherever it stands; its methods, signals and properties are its own
children, and so are the arguments of a method or signal.
-/

namespace SimBus.InterfaceSet

open Xml (Element)

def required (e : Element) (key : String) : Except DescriptionError String :=
  match e.attribute? key with
  | some value => .ok value
  | none => .error (.missingAttribute e.line e.name key)

def typeOf (e : Element) : Except DescriptionError Ty := do
  match Ty.parse (← required e "type") with
  | .ok ty => .ok ty
  | .error fault => .error (.signature e.line fault)

def argumentOf (e : Element) : Except DescriptionError Argument := do
  return ⟨e.attribute? "name", ← typeOf e⟩

def argumentsOf (elements : List Element) : Except DescriptionError (List Argument) :=
  elements.mapM argumentOf

/-- An argument is an input unless it says that it goes out. -/
def isOutput (e : Element) : Bool := e.attribute? "direction" == some "out"

def methodOf (e : Element) : Except DescriptionError Method := do
  let name ← required e "name"
  let arguments := e.childrenNamed "arg"
  let types ← argumentsOf arguments
  let sorted := (arguments.zip types).partition fun entry => isOutput entry.1
  return ⟨name, sorted.2.map Prod.snd, sorted.1.map Prod.snd⟩

def signalOf (e : Element) : Except DescriptionError Signal := do
  return ⟨← required e "name", ← argumentsOf (e.childrenNamed "arg")⟩

def propertyOf (e : Element) : Except DescriptionError Property := do
  let mode ← required e "access"
  match Access.ofName? mode with
  | none => .error (.unknownAccess e.line mode)
  | some access => return ⟨← required e "name", ← typeOf e, access⟩

def interfaceOf (e : Element) : Except DescriptionError Interface := do
  return ⟨← required e "name", ← (e.childrenNamed "method").mapM methodOf,
    ← (e.childrenNamed "signal").mapM signalOf, ← (e.childrenNamed "property").mapM propertyOf⟩

def insertElements : List Element → InterfaceSet → Except DescriptionError InterfaceSet
  | [], s => .ok s
  | e :: rest, s => do insertElements rest (← s.insert (← interfaceOf e))

def ofXml (text : String) : Except DescriptionError InterfaceSet :=
  match Xml.parse? text with
  | none => .error .malformed
  | some elements => insertElements ((Element.allOf elements).filter (·.name == "interface")) empty

end SimBus.InterfaceSet
