import AstSchema.Decimal

/-!
# The shortest decimal that reads back

A floating-point number stands for an interval of reals, those that are nearer to it than to its
neighbours, and any decimal inside reads back as it. The shortest one is found by trying grids of
ever smaller powers of ten. On each grid only the two points around the number matter, since every
other point lies farther out; the first grid with a point inside the interval wins, and of two
points the nearer one. All of it is exact arithmetic on natural numbers: numbers are measured in
quarters of the unit in the last place, so that the ends of the interval are whole.

Two points of a grid can be equally near. The two outputs that show numbers disagree on that case,
so it is a parameter.
-/

namespace AstSchema

/-- Which of two equally near decimals is taken. -/
inductive TieRule
  /-- The one farther from zero. -/
  | away
  /-- The one whose last digit is even. -/
  | even
  deriving DecidableEq, Repr

/-- A positive number `mantissa * 2 ^ exponent`. Where `narrow` holds, the next smaller number is
only half as far away as the next larger one. -/
structure Binary where
  /-- The significant bits, read as one number. -/
  mantissa : Nat
  /-- The power of two that is the unit of `mantissa`. -/
  exponent : Int
  /-- Whether the gap below is half the gap above. -/
  narrow : Bool
  deriving DecidableEq, Repr

namespace Binary

/-- A quarter of the last place of `x` is `scaleUp / scaleDown` units of `10 ^ k`. -/
def scaleUp (x : Binary) (k : Int) : Nat :=
  Nat.pow 2 (x.exponent - 2).toNat * Nat.pow 10 (-k).toNat

/-- A quarter of the last place of `x` is `scaleUp / scaleDown` units of `10 ^ k`. -/
def scaleDown (x : Binary) (k : Int) : Nat :=
  Nat.pow 2 (2 - x.exponent).toNat * Nat.pow 10 k.toNat

/-- Whether `d * 10 ^ k` reads back as `x`. The ends of the interval do if the mantissa is even. -/
def readsBack (x : Binary) (d : Nat) (k : Int) : Bool :=
  let low := (4 * x.mantissa - if x.narrow then 1 else 2) * x.scaleUp k
  let high := (4 * x.mantissa + 2) * x.scaleUp k
  let here := d * x.scaleDown k
  if x.mantissa % 2 = 0 then low ≤ here && here ≤ high else low < here && here < high

/-- The point of the grid of `10 ^ k` that reads back as `x` and is nearest to it. -/
def nearest? (tie : TieRule) (x : Binary) (k : Int) : Option Nat :=
  let unit := x.scaleDown k
  let floor := 4 * x.mantissa * x.scaleUp k / unit
  let twice := 2 * (4 * x.mantissa * x.scaleUp k % unit)
  match x.readsBack floor k, x.readsBack (floor + 1) k with
  | true, true =>
    if twice < unit then some floor
    else if unit < twice then some (floor + 1)
    else
      match tie with
      | .away => some (floor + 1)
      | .even => some (if floor % 2 = 0 then floor else floor + 1)
  | true, false => some floor
  | false, true => some (floor + 1)
  | false, false => none

/-- The first hit on the grids of `10 ^ k`, `10 ^ (k - 1)` and so on. -/
def firstHit (tie : TieRule) (x : Binary) : Nat → Int → Decimal
  | 0, k => ⟨4 * x.mantissa * x.scaleUp k / x.scaleDown k, k⟩
  | fuel + 1, k =>
    match x.nearest? tie k with
    | some d => ⟨d, k⟩
    | none => firstHit tie x fuel (k - 1)

/-- A power of ten that is not below the first digit of `x`. The factor is the logarithm of two to
the base ten, rounded up. -/
def coarsest (x : Binary) : Int := (x.exponent + Nat.log2 x.mantissa + 1) * 1234 / 4096 + 1

/-- The shortest decimal that reads back as `x`, and of those the nearest. Seventeen digits always
suffice, and the search starts at most a few grids too early. -/
def shortest (tie : TieRule) (x : Binary) : Decimal :=
  (x.firstHit tie 24 x.coarsest).dropZeros 24

end Binary

/-- What the bits of a floating-point number stand for. -/
inductive FloatShape
  /-- No number. -/
  | nan
  /-- An infinity. -/
  | infinity (negative : Bool)
  /-- Zero, which has a sign too. -/
  | zero (negative : Bool)
  /-- A number other than zero. -/
  | finite (negative : Bool) (size : Binary)
  deriving DecidableEq, Repr

/-- How many fractions there are: 52 bits. -/
def FloatShape.fractions : Nat := 0x10000000000000

/-- How many exponents there are: eleven bits. -/
def FloatShape.exponents : Nat := 0x800

/-- Reads the 64 bits of a double: a sign, eleven bits of exponent and 52 bits of fraction. -/
def FloatShape.ofBits (bits : Nat) : FloatShape :=
  let negative := bits / (exponents * fractions) % 2 = 1
  let biased : Nat := bits / fractions % exponents
  let fraction : Nat := bits % fractions
  if biased = exponents - 1 then
    if fraction = 0 then .infinity negative else .nan
  else if biased = 0 then
    if fraction = 0 then .zero negative else .finite negative ⟨fraction, -1074, false⟩
  else
    .finite negative ⟨fractions + fraction, biased - 1075, fraction = 0 ∧ 1 < biased⟩

/-- The shape of a floating-point number. -/
def FloatShape.of (x : Float) : FloatShape := ofBits x.toBits.toNat

end AstSchema
