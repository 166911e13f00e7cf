/-!
Doubles taken apart into sign, mantissa and power of two, and what follows
from that form: the remainder of a division, and whether two doubles are the
same datum.
-/

namespace SimBus.Double

/-- A double as a number: a finite one is `mantissa * 2 ^ exponent`, negated
when `negative` is set. -/
inductive Parts where
  | nan
  | infinite (negative : Bool)
  | finite (negative : Bool) (mantissa : Nat) (exponent : Int)
  deriving Repr, DecidableEq

def leastExponent : Int := -1074

def parts (x : Float) : Parts :=
  let bits : Nat := x.toBits.toNat
  let negative := bits / Nat.pow 2 63 == 1
  let biased : Nat := bits / Nat.pow 2 52 % Nat.pow 2 11
  let fraction : Nat := bits % Nat.pow 2 52
  if biased = 2047 then
    if fraction = 0 then .infinite negative else .nan
  else if biased = 0 then
    .finite negative fraction leastExponent
  else
    .finite negative (Nat.pow 2 52 + fraction) ((biased : Int) + leastExponent - 1)

/-- The double `2 ^ exponent`, for the exponents at which it is exact. -/
def powerOfTwo (exponent : Int) : Float :=
  if exponent < -1022 then
    Float.ofBits (Nat.pow 2 (exponent - leastExponent).toNat).toUInt64
  else
    Float.ofBits ((exponent + 1023).toNat * Nat.pow 2 52).toUInt64

/-- The double `mantissa * 2 ^ exponent` with the given sign, exact for mantissas
below `2 ^ 53`, because one of the factors is a power of two. -/
def ofParts (negative : Bool) (mantissa : Nat) (exponent : Int) : Float :=
  let magnitude := Float.ofNat mantissa * powerOfTwo exponent
  if negative then -magnitude else magnitude

/-- What is left of `x` after taking away `y` a whole number of times; it has
the sign of `x` and is smaller than `y`. No rounding takes place. -/
def remainder (x y : Float) : Float :=
  match parts x, parts y with
  | .nan, _ | _, .nan | .infinite _, _ => 0.0 / 0.0
  | .finite .., .infinite _ => x
  | .finite negative m e, .finite _ n f =>
      if n = 0 then 0.0 / 0.0 else
        let common := min e f
        let dividend := m * Nat.pow 2 (e - common).toNat
        let divisor := n * Nat.pow 2 (f - common).toNat
        ofParts negative (dividend % divisor) common

end SimBus.Double
