import SimBus.Xml.Character
/-!
Names and attributes in XML documents, and the namespaces that qualifiers of
names stand for. Every element sees the namespaces that it declares itself
before the ones of the elements around it.
-/

namespace SimBus.Xml

/-- A name in a namespace. The qualifier is empty if nothing qualifies it. -/
structure QualifiedName where
  qualifier : String
  name : String
  deriving DecidableEq

def qualifiedName? (cs : List Char) : Option QualifiedName :=
  match cs.takeWhile (· != ':'), cs.dropWhile (· != ':') with
  | name, [] =>
      if name.head?.any isNameStart then some ⟨"", String.ofList name⟩ else none
  | qualifier, _ :: name =>
      if qualifier.head?.all isNameStart && name.head?.any isNameStart && !name.contains ':' then
        some ⟨String.ofList qualifier, String.ofList name⟩
      else none

/-- The namespaces that qualifiers stand for. The empty qualifier is the one of
names without a qualifier. -/
abbrev Namespaces := List (String × String)

def xmlNamespace : String := "http://www.w3.org/XML/1998/namespace"

def xmlnsNamespace : String := "http://www.w3.org/2000/xmlns/"

structure Attributes where
  declared : Namespaces
  others : List (QualifiedName × String)

def Attributes.empty : Attributes := ⟨[], []⟩

def Attributes.add? (a : Attributes) (name : QualifiedName) (value : String) : Option Attributes :=
  if name.qualifier = "xmlns" then
    if value = xmlnsNamespace || (name.name == "xml") != (value == xmlNamespace)
        || (a.declared.lookup name.name).isSome then none
    else if value = xmlNamespace then some a
    else some { a with declared := a.declared ++ [(name.name, value)] }
  else if name.name = "xmlns" then
    if value = xmlNamespace || value = xmlnsNamespace then none
    else some { a with declared := a.declared ++ [("", value)] }
  else some { a with others := a.others ++ [(name, value)] }

/-- The expanded names of attributes: a namespace, if there is one, and a name. -/
def expandedNames? (scope : Namespaces) :
    List (QualifiedName × String) → Option (List (Option String × String))
  | [] => some []
  | (name, _) :: rest => do
      let space ← if name.qualifier = "" then some none
        else if name.qualifier = "xml" then some (some xmlNamespace)
        else (scope.lookup name.qualifier).map some
      return (space, name.name) :: (← expandedNames? scope rest)

def allDistinct {α : Type} [BEq α] : List α → Bool
  | [] => true
  | a :: rest => !rest.contains a && allDistinct rest

/-- The scope inside an element with these attributes, if all of their qualifiers
are known and no attribute occurs twice. -/
def Attributes.scope? (a : Attributes) (outer : Namespaces) : Option Namespaces := do
  let scope := a.declared ++ outer
  let names ← expandedNames? scope a.others
  if allDistinct names then some scope else none

/-- Whether an element may have the name: its qualifier has to be known. -/
def QualifiedName.isKnown (scope : Namespaces) (name : QualifiedName) : Bool :=
  name.qualifier == "" || (scope.lookup name.qualifier).isSome

def Attributes.unqualified (a : Attributes) : List (String × String) :=
  (a.others.filter (·.1.qualifier == "")).map fun entry => (entry.1.name, entry.2)

end SimBus.Xml
