/-!
XML documents as trees of elements. Only what elements say is kept: their
local names, the attributes that no namespace qualifies, and the line on which
each begins. Text between elements is not.
-/

namespace SimBus.Xml

inductive Element where
  | node (line : Nat) (name : String) (attributes : List (String × String))
      (children : List Element)
  deriving Inhabited

namespace Element

def line : Element → Nat
  | node line _ _ _ => line

def name : Element → String
  | node _ name _ _ => name

def attributes : Element → List (String × String)
  | node _ _ attributes _ => attributes

def children : Element → List Element
  | node _ _ _ children => children

def attribute? (e : Element) (key : String) : Option String := e.attributes.lookup key

def childrenNamed (e : Element) (name : String) : List Element :=
  e.children.filter (·.name == name)

mutual
/-- The element and all elements inside of it, in the order of their starts. -/
def all : Element → List Element
  | node line name attributes children => node line name attributes children :: allOf children

def allOf : List Element → List Element
  | [] => []
  | e :: rest => all e ++ allOf rest
end

end Element

end SimBus.Xml
