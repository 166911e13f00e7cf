import SimBus.Decimal.Style
/-!
JSON data. A number is either an integer that fits 64 bits, signed or
unsigned, or a double. The members of an object are kept in ascending order of
their names, and each name occurs once.
-/

namespace SimBus

inductive Json where
  | null
  | bool (flag : Bool)
  | integer (z : Int)
  | float (x : Float)
  | string (text : String)
  | array (items : List Json)
  | object (members : List (String × Json))
  deriving Inhabited

namespace Json

/-- Sets the member `name` among members in ascending order, replacing an
earlier one of that name. -/
def insertMember (name : String) (value : Json) :
    List (String × Json) → List (String × Json)
  | [] => [(name, value)]
  | (other, kept) :: rest =>
      if name < other then (name, value) :: (other, kept) :: rest
      else if name = other then (name, value) :: rest
      else (other, kept) :: insertMember name value rest

/-- The object with these members; of several with one name the last counts. -/
def ofMembers (members : List (String × Json)) : Json :=
  .object (members.foldl (fun sorted member => insertMember member.1 member.2 sorted) [])

/-- A finite double as a number. JSON has no other doubles. -/
def ofFloat (x : Float) : Json := if x.isFinite then .float x else .null

def member? (json : Json) (name : String) : Option Json :=
  match json with
  | .object members => members.lookup name
  | _ => none

def text? : Json → Option String
  | .string text => some text
  | _ => none

def bool? : Json → Option Bool
  | .bool flag => some flag
  | _ => none

def integer? : Json → Option Int
  | .integer z => some z
  | _ => none

def float? : Json → Option Float
  | .integer z => some (Float.ofInt z)
  | .float x => some x
  | _ => none

/-- JSON writes doubles in place from `1e-5` up to `1e16`, always with a point
or a power of ten; the power has a sign. -/
def numberStyle : DecimalStyle where
  plain point := -4 ≤ point && point ≤ 16
  pointZero := true
  plusSign := ['+']
  tie := .even

def summary : Json → String
  | .null => "null"
  | .bool _ => "boolean"
  | .integer z => "number " ++ toString z
  | .float x => "number " ++ numberStyle.write x
  | .string _ => "string"
  | .array items => "array of " ++ toString items.length
  | .object _ => "object"

end Json

end SimBus
