import SimBus.Double
/-!
The fewest decimal digits that still name a given double. Every decimal
number within half a step of a double is read back as that double; among the
shortest such numbers the nearest is taken.
-/

namespace SimBus

/-- The decimal number `0.d₁d₂… * 10 ^ point`. -/
structure Decimal where
  digits : List Char
  point : Int
  deriving Repr, DecidableEq

inductive TieRule where
  | up | even
  deriving Repr, DecidableEq

namespace Decimal

/-- The decimal `count * 10 ^ scale` without trailing zeros. -/
def ofScaled (count : Nat) (scale : Int) : Decimal :=
  let digits := Nat.toDigits 10 count
  let kept := (digits.reverse.dropWhile (· == '0')).reverse
  ⟨kept, digits.length + scale⟩

/-- The positive double `value / unit`, with the ends `low / unit` and
`high / unit` of the numbers that are read back as it. -/
structure Span where
  low : Nat
  value : Nat
  high : Nat
  unit : Nat
  closed : Bool

/-- The span of `mantissa * 2 ^ exponent`. Numbers below a power of two lie
twice as densely as those above it, so its lower end is nearer. -/
def Span.ofParts (mantissa : Nat) (exponent : Int) : Span :=
  let below := if mantissa = Nat.pow 2 52 ∧ exponent > Double.leastExponent then 1 else 2
  let factor := Nat.pow 2 (exponent - 2).toNat
  { low := (4 * mantissa - below) * factor
    value := 4 * mantissa * factor
    high := (4 * mantissa + 2) * factor
    unit := Nat.pow 2 (2 - exponent).toNat
    closed := mantissa % 2 == 0 }

def Span.rescale (s : Span) (scale : Int) : Span :=
  let up := Nat.pow 10 (-scale).toNat
  { low := s.low * up
    value := s.value * up
    high := s.high * up
    unit := s.unit * Nat.pow 10 scale.toNat
    closed := s.closed }

def Span.contains (s : Span) (count : Nat) : Bool :=
  if s.closed then s.low ≤ count * s.unit && count * s.unit ≤ s.high
  else s.low < count * s.unit && count * s.unit < s.high

def Span.nearest? (s : Span) (tie : TieRule) : Option Nat :=
  let floor := s.value / s.unit
  match s.contains floor, s.contains (floor + 1) with
  | false, false => none
  | true, false => some floor
  | false, true => some (floor + 1)
  | true, true =>
      let twice := 2 * (s.value - floor * s.unit)
      if twice < s.unit then some floor
      else if s.unit < twice then some (floor + 1)
      else match tie with
        | .up => some (floor + 1)
        | .even => some (if floor % 2 = 0 then floor else floor + 1)

/-- The `point` with `10 ^ (point - 1) ≤ value / unit < 10 ^ point`. -/
def Span.point (s : Span) : Int :=
  if s.unit ≤ s.value then
    (Nat.toDigits 10 (s.value / s.unit)).length
  else
    let size := (Nat.toDigits 10 (s.unit / s.value)).length
    if s.unit ≤ s.value * Nat.pow 10 (size - 1) then 2 - size else 1 - size

/-- The first of the digit counts `count`, `count + 1`, … at which some number
lies in the span. -/
def Span.search (s : Span) (tie : TieRule) (point : Int) : (tries count : Nat) → Decimal
  | 0, count => ofScaled (s.value / s.unit) (point - count)
  | tries + 1, count =>
      let scale := point - count
      match (s.rescale scale).nearest? tie with
      | some steps => ofScaled steps scale
      | none => search s tie point tries (count + 1)

/-- The shortest digits of `mantissa * 2 ^ exponent`; seventeen always do. -/
def shortest (tie : TieRule) (mantissa : Nat) (exponent : Int) : Decimal :=
  let s := Span.ofParts mantissa exponent
  s.search tie s.point 17 1

end Decimal

end SimBus
