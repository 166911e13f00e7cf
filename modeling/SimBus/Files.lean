import SimBus.Check
import SimBus.Interface.Introspection
import SimBus.Interface.Record
/-!
Inputs from files. The files are given as a function, so what is made of them
does not depend on where they are kept.
-/

namespace SimBus

abbrev Files := String → Option String

inductive LoadError where
  | unreadable (file : String)
  | description (file : String) (error : DescriptionError)
  | program (file : String) (error : ParseError)
  | settings (file : String)

namespace LoadError

def message : LoadError → String
  | unreadable file => "cannot read " ++ Text.quote file
  | description file error => Text.quote file ++ ": " ++ error.message
  | program file error => file ++ ":" ++ error.text
  | settings file => "configuration error: " ++ file

def status : LoadError → CheckStatus
  | unreadable _ => .unreadable
  | description .. | program .. | settings _ => .invalid

end LoadError

namespace Files

def read (files : Files) (file : String) : Except LoadError String :=
  match files file with
  | some text => .ok text
  | none => .error (.unreadable file)

/-- The part of a name behind the last dot of its last component. A name that
only begins with a dot has none. -/
def extension? (file : String) : Option String :=
  let component := (file.toList.reverse.takeWhile (· != '/'))
  match component.dropWhile (· != '.') with
  | [] | [_] => none
  | _ => some (String.ofList (component.takeWhile (· != '.')).reverse)

/-- Reads a description: in JSON from a file of that kind, or else a document. -/
def description (files : Files) (file : String) : Except LoadError InterfaceSet := do
  let text ← files.read file
  let read := if extension? file = some "json" then InterfaceSet.ofJson else InterfaceSet.ofXml
  match read text with
  | .ok interfaces => .ok interfaces
  | .error e => .error (.description file e)

def addDescriptions (files : Files) : List String → InterfaceSet → Except LoadError InterfaceSet
  | [], known => .ok known
  | file :: rest, known => do
      match known.merge (← files.description file) with
      | .ok known => addDescriptions files rest known
      | .error e => .error (.description file e)

def interfaces (files : Files) (names : List String) : Except LoadError InterfaceSet :=
  addDescriptions files names InterfaceSet.empty

/-- Checks programs. One that cannot be read keeps all from being checked. -/
def check (files : Files) (table : BuiltinTable) (known : InterfaceSet) (programs : List String) :
    Except LoadError (List CheckReport) :=
  programs.mapM fun file => do return Program.check table known file (← files.read file)

end Files

end SimBus
