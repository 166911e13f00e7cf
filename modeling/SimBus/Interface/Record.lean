import SimBus.Interface
import SimBus.Json.Record
/-!
Descriptions of interfaces in JSON, as records inside records. Types are
written as signatures.
-/

namespace SimBus.InterfaceSet

open JsonText

def ty? (json : JsonText) : Option Ty := do
  match Ty.parse (← string? json) with
  | .ok ty => some ty
  | .error _ => none

def argument? (json : JsonText) : Option Argument := do
  match ← fields? ["name", "type"] json with
  | [name, some ty] => some ⟨← optional? string? name, ← ty? ty⟩
  | _ => none

def arguments? : Option JsonText → Option (List Argument) := orElse? (items? argument?) []

def method? (json : JsonText) : Option Method := do
  match ← fields? ["name", "in_args", "out_args"] json with
  | [some name, inputs, outputs] =>
      some ⟨← string? name, ← arguments? inputs, ← arguments? outputs⟩
  | _ => none

def signal? (json : JsonText) : Option Signal := do
  match ← fields? ["name", "args"] json with
  | [some name, arguments] => some ⟨← string? name, ← arguments? arguments⟩
  | _ => none

/-- An access mode is a word, or an object whose one member has the word as its
name and no value. -/
def access? : JsonText → Option Access
  | object [(name, null)] => (text? name).bind Access.ofName?
  | json => (string? json).bind Access.ofName?

def property? (json : JsonText) : Option Property := do
  match ← fields? ["name", "type", "access"] json with
  | [some name, some ty, some access] => some ⟨← string? name, ← ty? ty, ← access? access⟩
  | _ => none

def interface? (json : JsonText) : Option Interface := do
  match ← fields? ["name", "methods", "signals", "properties"] json with
  | [some name, methods, signals, properties] =>
      some ⟨← string? name, ← orElse? (items? method?) [] methods,
        ← orElse? (items? signal?) [] signals, ← orElse? (items? property?) [] properties⟩
  | _ => none

def ofRecord? (json : JsonText) : Option InterfaceSet := do
  match ← fields? ["interfaces"] json with
  | [some interfaces] => some ⟨← items? interface? interfaces⟩
  | _ => none

/-- The interfaces that a JSON text describes. Interfaces of one name are kept
side by side. -/
def ofJson (text : String) : Except DescriptionError InterfaceSet :=
  match (JsonText.parse? text).bind ofRecord? with
  | some interfaces => .ok interfaces
  | none => .error .notDescription

end SimBus.InterfaceSet
