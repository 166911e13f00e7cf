import SimBus.Xml
import SimBus.Xml.Attributes
/-!
Trees of elements under construction. Tags open and close elements one by one,
and what is complete goes into the innermost element that is open. Nothing is
asked about where the tags stand.
-/

namespace SimBus.Xml

structure OpenElement where
  line : Nat
  name : QualifiedName
  attributes : List (String × String)
  scope : Namespaces
  /-- The children that are complete, the last one first. -/
  children : List Element

def OpenElement.toElement (e : OpenElement) : Element :=
  .node e.line e.name.name e.attributes e.children.reverse

structure Tree where
  /-- The complete elements that stand in no other, the last one first. -/
  complete : List Element
  opened : List OpenElement

namespace Tree

def empty : Tree := ⟨[], []⟩

def scope (t : Tree) : Namespaces :=
  match t.opened with
  | [] => []
  | e :: _ => e.scope

def add (t : Tree) (e : Element) : Tree :=
  match t.opened with
  | [] => { t with complete := e :: t.complete }
  | parent :: outer =>
      { t with opened := { parent with children := e :: parent.children } :: outer }

def start (t : Tree) (e : OpenElement) : Tree := { t with opened := e :: t.opened }

/-- Closes the innermost open element, which has to have the given name. -/
def close? (t : Tree) (name : QualifiedName) : Option Tree :=
  match t.opened with
  | [] => none
  | e :: outer => if e.name = name then some (add { t with opened := outer } e.toElement) else none

/-- The elements that stand in no other. There have to be some, and none may be
open. -/
def elements? (t : Tree) : Option (List Element) :=
  if t.opened.isEmpty && !t.complete.isEmpty then some t.complete.reverse else none

end Tree

end SimBus.Xml
