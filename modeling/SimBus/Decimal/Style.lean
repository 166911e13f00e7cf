import SimBus.Decimal.Shortest
/-!
How a double is written: with a point at its place, or as one digit, the
fraction and a power of ten. A style says where the one form gives way to the
other.
-/

namespace SimBus

/-- A way of writing doubles. Numbers whose `Decimal.point` lies in `plain` are
written without a power of ten. -/
structure DecimalStyle where
  plain : Int → Bool
  pointZero : Bool
  /-- What stands before a power of ten that is not negative. -/
  plusSign : List Char
  tie : TieRule

namespace DecimalStyle

/-- Digits and point in place; zeros fill the gap between them. -/
def positional (style : DecimalStyle) (d : Decimal) : List Char :=
  let whole := d.digits.length ≤ d.point
  if d.point ≤ 0 then
    '0' :: '.' :: (List.replicate (-d.point).toNat '0' ++ d.digits)
  else if whole then
    d.digits ++ List.replicate (d.point.toNat - d.digits.length) '0'
      ++ (if style.pointZero then ['.', '0'] else [])
  else
    d.digits.take d.point.toNat ++ '.' :: d.digits.drop d.point.toNat

def power (style : DecimalStyle) (exponent : Int) : List Char :=
  'e' :: (if exponent < 0 then ['-'] else style.plusSign) ++ Nat.toDigits 10 exponent.natAbs

def scientific (style : DecimalStyle) (d : Decimal) : List Char :=
  match d.digits with
  | [] => style.power (d.point - 1)
  | [c] => c :: style.power (d.point - 1)
  | c :: rest => c :: '.' :: (rest ++ style.power (d.point - 1))

def magnitude (style : DecimalStyle) (mantissa : Nat) (exponent : Int) : List Char :=
  if mantissa = 0 then
    if style.pointZero then ['0', '.', '0'] else ['0']
  else
    let d := Decimal.shortest style.tie mantissa exponent
    if style.plain d.point then style.positional d else style.scientific d

def write (style : DecimalStyle) (x : Float) : String :=
  match Double.parts x with
  | .nan => "NaN"
  | .infinite negative => if negative then "-inf" else "inf"
  | .finite negative m e =>
      String.ofList ((if negative then ['-'] else []) ++ style.magnitude m e)

end DecimalStyle

end SimBus
