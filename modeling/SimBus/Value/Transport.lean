import SimBus.Value
import SimBus.Ty.Signature
/-!
Values as JSON. Integers and finite doubles are numbers, strings and object
paths are strings, and arrays and tuples are lists. A variant carries its
signature beside the value. A dictionary with textual keys is an object, any
other a list of pairs. Reading needs the type, since the JSON does not tell.
-/

namespace SimBus.Value

/-- Whether dictionaries with keys of the type become JSON objects. -/
def isTextual : Ty → Bool
  | .string | .objectPath => true
  | _ => false

mutual
def toJson : Value → Json
  | bool flag => .bool flag
  | int _ number => .integer number.val
  | double x => Json.ofFloat x
  | string text | objectPath text => .string text
  | variant inner =>
      Json.ofMembers [("signature", .string inner.ty.signature), ("value", toJson inner)]
  | array _ items | tuple items => .array (toJsonList items)
  | dict key _ entries =>
      if isTextual key then Json.ofMembers (toJsonMembers entries)
      else .array (toJsonPairs entries)

def toJsonList : List Value → List Json
  | [] => []
  | item :: rest => toJson item :: toJsonList rest

/-- Entries whose key has no text cannot be members and are left out. -/
def toJsonMembers : List (Value × Value) → List (String × Json)
  | [] => []
  | (key, value) :: rest =>
      match key.text? with
      | some name => (name, toJson value) :: toJsonMembers rest
      | none => toJsonMembers rest

def toJsonPairs : List (Value × Value) → List Json
  | [] => []
  | (key, value) :: rest => .array [toJson key, toJson value] :: toJsonPairs rest
end

def ofJsonBasic (json : Json) (ty : Ty) : Except ValueError Value :=
  let unreadable := .error (.unreadable ty json)
  match ty with
  | .bool => match json.bool? with
    | some flag => .ok (.bool flag)
    | none => unreadable
  | .double => match json.float? with
    | some x => .ok (.double x)
    | none => unreadable
  | .int _ => match json.integer? with
    | some z => ofInt ty z
    | none => unreadable
  | .string => match json.text? with
    | some text => .ok (.string text)
    | none => unreadable
  | .objectPath => match json.text? with
    | some text => mkObjectPath text
    | none => unreadable
  | _ => unreadable

mutual
def ofJson : Json → Ty → Except ValueError Value
  | .array items, .array element => do
      let values ← ofJsonItems items element
      pure (.array element values)
  | .array items, .tuple members =>
      if items.length = members.length then do
        let values ← ofJsonTuple items members
        pure (.tuple values)
      else .error (.unreadable (.tuple members) (.array items))
  | .array items, .dict key value => do
      let pairs ← ofJsonPairs (.unreadable (.dict key value) (.array items)) items key value
      mkDict key value pairs
  | .object members, .dict key value => do
      let pairs ← ofJsonObject members key value
      mkDict key value pairs
  | .object members, .variant =>
      let unreadable := .unreadable .variant (.object members)
      match (members.lookup "signature").bind Json.text? with
      | none => .error unreadable
      | some signature =>
          match Ty.parse signature with
          | .error _ => .error unreadable
          | .ok ty => do
              let inner ← ofJsonMember unreadable "value" members ty
              pure (.variant inner)
  | json, ty => ofJsonBasic json ty

def ofJsonItems : List Json → Ty → Except ValueError (List Value)
  | [], _ => .ok []
  | item :: rest, element => do
      let value ← ofJson item element
      let values ← ofJsonItems rest element
      pure (value :: values)

def ofJsonTuple : List Json → List Ty → Except ValueError (List Value)
  | item :: rest, ty :: types => do
      let value ← ofJson item ty
      let values ← ofJsonTuple rest types
      pure (value :: values)
  | _, _ => .ok []

/-- Reads a dictionary from pairs; anything else in the list gives `fault`. -/
def ofJsonPairs (fault : ValueError) :
    List Json → Ty → Ty → Except ValueError (List (Value × Value))
  | [], _, _ => .ok []
  | .array [key, value] :: rest, keyTy, valueTy => do
      let key ← ofJson key keyTy
      let value ← ofJson value valueTy
      let pairs ← ofJsonPairs fault rest keyTy valueTy
      pure ((key, value) :: pairs)
  | _ :: _, _, _ => .error fault

def ofJsonObject : List (String × Json) → Ty → Ty → Except ValueError (List (Value × Value))
  | [], _, _ => .ok []
  | (name, json) :: rest, keyTy, valueTy => do
      let key ← ofJsonBasic (.string name) keyTy
      let value ← ofJson json valueTy
      let pairs ← ofJsonObject rest keyTy valueTy
      pure ((key, value) :: pairs)

/-- Reads the member `name`; without one the result is `fault`. -/
def ofJsonMember (fault : ValueError) (name : String) :
    List (String × Json) → Ty → Except ValueError Value
  | [], _ => .error fault
  | (other, json) :: rest, ty =>
      if name = other then ofJson json ty else ofJsonMember fault name rest ty
end

end SimBus.Value
