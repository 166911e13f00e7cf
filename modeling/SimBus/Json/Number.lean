import SimBus.Json
import SimBus.Text.Digits
/-!
JSON number literals and the numbers they denote. A plain integer that fits 64
bits is kept exactly. Every other literal is a double: as many of its digits as
fit 64 bits form a whole number, which is then scaled by a power of ten.
-/

namespace SimBus.Json

/-- A number literal in parts. A literal without a point has no fraction
digits. The exponent has a sign, set when negative, and its digits. -/
structure NumberText where
  negative : Bool
  whole : List Char
  fraction : List Char
  exponent : Option (Bool × List Char)
  deriving Repr, DecidableEq

namespace NumberText

/-- Appends digits to a number as long as it stays below `2 ^ 64`, and gives
back the digits from the first that does not fit. -/
def fill (number : Nat) : List Char → Nat × List Char
  | [] => (number, [])
  | c :: rest =>
      let longer := 10 * number + Digits.value c
      if longer < Nat.pow 2 64 then fill longer rest else (number, c :: rest)

/-- Divides by `10 ^ power`, in steps of at most `10 ^ 308`. -/
def scaleDown (x : Float) (power : Nat) : Float :=
  if power ≤ 308 then x / Float.ofScientific 1 false power
  else if x == 0.0 then x
  else scaleDown (x / 1e308) (power - 308)
termination_by power

/-- The whole number as a double, scaled by `10 ^ power`; too large a result is
refused. -/
def scale? (number : Nat) (power : Int) : Option Float :=
  let x := Float.ofNat number
  if power < 0 then some (scaleDown x (-power).toNat)
  else if power ≤ 308 then
    let scaled := x * Float.ofScientific 1 false power.toNat
    if scaled.isInf then none else some scaled
  else if number = 0 then some x
  else none

/-- The size of the exponent. It is read only as far as 32 bits go. -/
def power? (digits : List Char) : Option Nat :=
  let power := digits.foldl (fun n c => min (10 * n + Digits.value c) (Nat.pow 2 31)) 0
  if power < Nat.pow 2 31 then some power else none

def magnitude? (n : NumberText) : Option Float :=
  let (number, dropped) := fill 0 n.whole
  let (number, unused) := fill number n.fraction
  let places : Int := (dropped.length : Int) - (n.fraction.length - unused.length : Nat)
  match n.exponent with
  | none => scale? number places
  | some (negative, digits) =>
      match power? digits with
      | some power => scale? number (if negative then places - power else places + power)
      | none => if number ≠ 0 && !negative then none else some 0.0

def integer? (n : NumberText) : Option Int :=
  match n.fraction, n.exponent, fill 0 n.whole with
  | [], none, (number, []) =>
      if !n.negative then some number
      else if 0 < number && number ≤ Nat.pow 2 63 then some (-number)
      else none
  | _, _, _ => none

/-- The number denoted by a literal; a double too large to be finite is refused. -/
def toJson? (n : NumberText) : Option Json :=
  match n.integer? with
  | some z => some (.integer z)
  | none => n.magnitude?.map fun x => .float (if n.negative then -x else x)

end NumberText

end SimBus.Json
