import SimBus.Json.Reader
/-!
Records in JSON: an object with members of fixed names, or a list with their
values in a fixed order. An object may have other members, which are ignored;
a list may be shorter than the record, but not longer.
-/

namespace SimBus.JsonText

def valuesOf (name : String) (members : List (String × JsonText)) : List JsonText :=
  (members.filter (·.1 == name)).map Prod.snd

/-- The value of a member that occurs at most once; `none` if it is repeated. -/
def single? (values : List JsonText) : Option (Option JsonText) :=
  match values with
  | [] => some none
  | [value] => some (some value)
  | _ => none

def named? : List (List Char × JsonText) → Option (List (String × JsonText))
  | [] => some []
  | (name, value) :: rest => do
      let name ← text? name
      let members ← named? rest
      pure ((name, value) :: members)

def fields? (names : List String) : JsonText → Option (List (Option JsonText))
  | object members => do
      let members ← named? members
      names.mapM fun name => single? (valuesOf name members)
  | array items =>
      if items.length ≤ names.length then
        some (items.map some ++ List.replicate (names.length - items.length) none)
      else none
  | _ => none

def string? : JsonText → Option String
  | string body => text? body
  | _ => none

def natural? : JsonText → Option Nat
  | number literal =>
      match literal.integer? with
      | some z => if 0 ≤ z then some z.toNat else none
      | none => none
  | _ => none

def items? {α : Type} (item? : JsonText → Option α) : JsonText → Option (List α)
  | array items => items.mapM item?
  | _ => none

/-- A field that may be missing or null. -/
def optional? {α : Type} (value? : JsonText → Option α) : Option JsonText → Option (Option α)
  | none | some null => some none
  | some json => (value? json).map some

def orElse? {α : Type} (value? : JsonText → Option α) (default : α) : Option JsonText → Option α
  | none => some default
  | some json => value? json

end SimBus.JsonText
