import SimBus.Value
import SimBus.Text.Quoted
import SimBus.Text.Digits
/-!
How values are shown in messages.
-/

namespace SimBus.Value

/-- Doubles are shown in place from `1e-4` up to `1e16`, always with a point or
a power of ten. -/
def doubleStyle : DecimalStyle where
  plain point := -3 ≤ point && point ≤ 16
  pointZero := true
  plusSign := []
  tie := .up

def byteText (n : Nat) : String := "0x" ++ String.ofList (Digits.padded 16 2 n)

def commaSeparated (texts : List String) : String := ", ".intercalate texts

mutual
def text : Value → String
  | bool flag => if flag then "true" else "false"
  | int .byte number => byteText number.val.toNat
  | int _ number => toString number.val
  | double x => doubleStyle.write x
  | string text => Text.quote text
  | objectPath path => "@o " ++ Text.quote path
  | variant inner => "<" ++ text inner ++ ">"
  | array element [] => "@a" ++ element.signature ++ " []"
  | array _ items => "[" ++ commaSeparated (texts items) ++ "]"
  | tuple [item] => "(" ++ text item ++ ",)"
  | tuple items => "(" ++ commaSeparated (texts items) ++ ")"
  | dict _ _ entries => "\x7b" ++ commaSeparated (entryTexts entries) ++ "\x7d"

def texts : List Value → List String
  | [] => []
  | item :: rest => text item :: texts rest

def entryTexts : List (Value × Value) → List String
  | [] => []
  | (key, value) :: rest => (text key ++ ": " ++ text value) :: entryTexts rest
end

end SimBus.Value
