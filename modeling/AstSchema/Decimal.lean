/-!
# Decimal numbers

A decimal number is a natural number of units of a power of ten. Two layouts write one down. The
positional layout never has an exponent, however many zeros that takes. The layout of numbers in
data files always shows that the number is no integer: it has a fraction or an exponent, and the
exponent takes over where the positional layout would get long.
-/

namespace AstSchema

/-- The number `digits * 10 ^ exponent`. -/
structure Decimal where
  /-- The decimal digits, read as one number. -/
  digits : Nat
  /-- The power of ten that is the unit of `digits`. -/
  exponent : Int
  deriving DecidableEq, Repr

namespace Decimal

/-- The digits as characters. -/
def digitChars (d : Decimal) : List Char := Nat.toDigits 10 d.digits

/-- Where the point stands, counted from the first digit. -/
def point (d : Decimal) : Int := d.digitChars.length + d.exponent

/-- The same number with no zero at the end of its digits, as far as `fuel` goes. -/
def dropZeros : Nat → Decimal → Decimal
  | 0, d => d
  | fuel + 1, d =>
    if d.digits % 10 = 0 then dropZeros fuel ⟨d.digits / 10, d.exponent + 1⟩ else d

/-- The digits with the point in its place, and no point in an integer. -/
def positional (d : Decimal) : List Char :=
  let cs := d.digitChars
  if 0 ≤ d.exponent then
    cs ++ List.replicate d.exponent.toNat '0'
  else if 0 < d.point then
    cs.take d.point.toNat ++ '.' :: cs.drop d.point.toNat
  else
    ['0', '.'] ++ List.replicate (-d.point).toNat '0' ++ cs

/-- One digit in front of the point and a signed exponent. -/
def scientific (d : Decimal) : List Char :=
  let fraction := match d.digitChars with
    | [] => []
    | [c] => [c]
    | c :: cs => c :: '.' :: cs
  let e := d.point - 1
  fraction ++ ['e', if e < 0 then '-' else '+'] ++ Nat.toDigits 10 e.natAbs

/-- The layout of data files: positional where the first digit stands for at least `10⁻⁵` and for
less than `10¹⁶`, with `.0` behind an integer, and scientific elsewhere. -/
def dataLayout (d : Decimal) : List Char :=
  if -5 < d.point ∧ d.point ≤ 16 then
    if 0 ≤ d.exponent then d.positional ++ ['.', '0'] else d.positional
  else
    d.scientific

end Decimal

end AstSchema
