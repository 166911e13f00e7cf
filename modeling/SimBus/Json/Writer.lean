import SimBus.Json
import SimBus.Text.Digits
/-!
Writing JSON on one line, without blanks.
-/

namespace SimBus.Json

/-- A character inside the quotes. Only quotes, backslashes and control
characters are not written as they are. -/
def escaped (c : Char) : List Char :=
  match c with
  | '"' => ['\\', '"']
  | '\\' => ['\\', '\\']
  | '\n' => ['\\', 'n']
  | '\r' => ['\\', 'r']
  | '\t' => ['\\', 't']
  | '\x08' => ['\\', 'b']
  | '\x0c' => ['\\', 'f']
  | c => if c.toNat < 0x20 then '\\' :: 'u' :: Digits.padded 16 4 c.toNat else [c]

def writeString (text : String) : String :=
  String.ofList ('"' :: (text.toList.flatMap escaped ++ ['"']))

mutual
def write : Json → String
  | null => "null"
  | bool flag => if flag then "true" else "false"
  | integer z => toString z
  | float x => numberStyle.write x
  | string text => writeString text
  | array items => "[" ++ ",".intercalate (writeItems items) ++ "]"
  | object members => "\x7b" ++ ",".intercalate (writeMembers members) ++ "\x7d"

def writeItems : List Json → List String
  | [] => []
  | item :: rest => write item :: writeItems rest

def writeMembers : List (String × Json) → List String
  | [] => []
  | (name, value) :: rest => (writeString name ++ ":" ++ write value) :: writeMembers rest
end

end SimBus.Json
