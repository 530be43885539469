import Bindery.Number.Decimal

set_option autoImplicit false

/-! The IEEE 754 double precision numbers, as values: which number a decimal is rounded to, and
which decimal a number is written as. All arithmetic is on natural numbers and exact.

The finite numbers of one sign stand on a line: number `i` of it has exponent field `i / 2 ^ 52`
and fraction field `i % 2 ^ 52`, and the first place after the last finite number is that of
infinity. -/

namespace Bindery.Number

/-- The number of fractions that share an exponent, two to the power of 52. -/
abbrev fractionCount : Nat := 0x10000000000000

/-- A double precision number. Not-a-number has neither sign nor payload, so every value has exactly
one form. -/
inductive Binary64 where
  | nan
  | infinite (negative : Bool)
  | finite (negative : Bool) (exponent : Fin 2047) (fraction : Fin fractionCount)
  deriving DecidableEq, Repr

namespace Binary64

def zero : Binary64 := .finite false 0 ⟨0, by decide⟩

/-- Number `index` on the line of its sign. -/
def ofIndex (negative : Bool) (index : Nat) : Binary64 :=
  if inRange : index / fractionCount < 2047 then
    .finite negative ⟨index / fractionCount, inRange⟩
      ⟨index % fractionCount, Nat.mod_lt _ (by decide)⟩
  else .infinite negative

/-- The quotient rounded to the nearest natural number, a half to the even neighbour. -/
def roundQuotient (numerator denominator : Nat) : Nat :=
  let quotient := numerator / denominator
  let twice := 2 * (numerator % denominator)
  if denominator < twice ∨ (twice = denominator ∧ quotient % 2 = 1) then quotient + 1 else quotient

/-- The number nearest to a quotient, in a tie the one with the even significand. The least finite
numbers are `2 ^ (-1074)` apart, and from the second exponent on the distance doubles with each
exponent; a significand has at most 53 bits. -/
def ofQuotient (negative : Bool) (numerator denominator : Nat) : Binary64 :=
  let scaled := numerator * Nat.pow 2 1074
  let doublings := (scaled / denominator).log2 + 1 - 53
  ofIndex negative <|
    doublings * fractionCount + roundQuotient scaled (denominator * Nat.pow 2 doublings)

/-- The number nearest to a decimal. A decimal that is at least `10 ^ 309` rounds to infinity and
one below `10 ^ (-330)` to zero; the two shortcuts only keep the powers of ten small. -/
def ofDecimal (negative : Bool) (number : Decimal) : Binary64 :=
  let point := (digitsOf number.units).length + number.place
  if number.units = 0 ∨ point < -330 then ofIndex negative 0
  else if 310 ≤ point then .infinite negative
  else if 0 ≤ number.place then
    ofQuotient negative (number.units * Nat.pow 10 number.place.toNat) 1
  else ofQuotient negative number.units (Nat.pow 10 (-number.place).toNat)

/-- Reads at most one sign and then `inf`, `infinity` or `nan` in any case of the letters, or a
decimal. -/
def read? (text : String) : Option Binary64 :=
  let (negative, rest) := takeSign text.toList
  let word := String.ofList (rest.map Char.toLower)
  if word = "inf" ∨ word = "infinity" then some (.infinite negative)
  else if word = "nan" then some .nan
  else (Decimal.read? rest).map (ofDecimal negative)

/-- A finite number is its significand times a power of two. -/
def significand (exponent : Fin 2047) (fraction : Fin fractionCount) : Nat :=
  if exponent.val = 0 then fraction.val else fractionCount + fraction.val

def scale (exponent : Fin 2047) : Int := max (exponent.val : Int) 1 - 1075

/-- The real numbers that are rounded to one number, in quarters of the distance to the next larger
one. The number itself is `4 * significand`. -/
structure Basin where
  low : Nat
  high : Nat
  /-- Whether the two ends themselves are rounded to the number. -/
  closed : Bool

/-- The next smaller number is only half as far away if the significand is the least of its
exponent. The ends of the basin belong to it when the significand is even. -/
def basin (exponent : Fin 2047) (fraction : Fin fractionCount) : Basin :=
  let center := 4 * significand exponent fraction
  let below := if fraction.val = 0 ∧ 1 < exponent.val then 1 else 2
  ⟨center - below, center + 2, significand exponent fraction % 2 = 0⟩

/-- Whether `count` steps of size `step` fall into the basin, its ends being multiples of `unit`. -/
def Basin.contains (range : Basin) (unit step count : Nat) : Bool :=
  let value := count * step
  if range.closed then range.low * unit ≤ value && value ≤ range.high * unit
  else range.low * unit < value && value < range.high * unit

/-- The multiple of `10 ^ place` nearest to the number among those that are rounded to it, of two
equally near the larger. Only the two neighbours of the number need a look. -/
def nearestAt? (exponent : Fin 2047) (fraction : Fin fractionCount) (place : Int) : Option Nat :=
  let quarter := scale exponent - 2
  let unit := Nat.pow 10 (-place).toNat * Nat.pow 2 quarter.toNat
  let step := Nat.pow 10 place.toNat * Nat.pow 2 (-quarter).toNat
  let value := 4 * significand exponent fraction * unit
  let lower := value / step
  let range := basin exponent fraction
  match range.contains unit step lower, range.contains unit step (lower + 1) with
  | true, true => if 2 * value < (2 * lower + 1) * step then some lower else some (lower + 1)
  | true, false => some lower
  | false, true => some (lower + 1)
  | false, false => none

/-- The number of places between the first digit of a number that is not zero and the point. -/
def pointOf (exponent : Fin 2047) (fraction : Fin fractionCount) : Int :=
  let size := scale exponent
  let scaled :=
    significand exponent fraction * Nat.pow 2 size.toNat * Nat.pow 10 400 / Nat.pow 2 (-size).toNat
  (digitsOf scaled).length - 400

/-- The decimal with the fewest digits that is rounded to the number, and of those the nearest.
Seventeen digits always suffice. -/
def shortest (exponent : Fin 2047) (fraction : Fin fractionCount) : Decimal :=
  let point := pointOf exponent fraction
  let found := (List.range 17).findSome? fun (more : Nat) =>
    (nearestAt? exponent fraction (point - 1 - (more : Int))).map fun units =>
      Decimal.trimZeros 17 ⟨units, point - 1 - (more : Int)⟩
  found.getD ⟨0, 0⟩

/-- Numbers from `10 ^ (-4)` on and below `10 ^ 16` have their point in place. -/
def textLayout : Decimal.Layout := ⟨-3, 16⟩

/-- The text of a number, which reads back as the same number. -/
def write : Binary64 → String
  | .nan => "NaN"
  | .infinite negative => if negative then "-inf" else "inf"
  | .finite negative exponent fraction =>
      let size :=
        if significand exponent fraction = 0 then ['0', '.', '0']
        else (shortest exponent fraction).write textLayout
      String.ofList (if negative then '-' :: size else size)

/-- Equality of numbers as numbers: not-a-number differs from everything, itself included, and the
two zeros are equal. -/
def same : Binary64 → Binary64 → Bool
  | .nan, _ => false
  | _, .nan => false
  | .finite leftSign leftExponent leftFraction, .finite rightSign rightExponent rightFraction =>
      leftExponent = rightExponent && leftFraction = rightFraction &&
        (leftSign = rightSign || significand leftExponent leftFraction = 0)
  | left, right => left = right

end Binary64

end Bindery.Number
