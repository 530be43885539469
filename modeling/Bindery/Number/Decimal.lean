import Bindery.Number.Digits

set_option autoImplicit false

/-! Decimal numbers: a whole number of units of some power of ten, and the two notations in which
such numbers are read and written. -/

namespace Bindery.Number

/-- The number `units · 10 ^ place`. -/
structure Decimal where
  units : Nat
  place : Int
  deriving DecidableEq, Repr

namespace Decimal

/-- The power of ten marked by the end of a number: nothing, or `e` or `E`, at most one sign and at
least one digit. -/
def readExponent? : List Char → Option Int
  | [] => some 0
  | mark :: rest =>
      if mark = 'e' ∨ mark = 'E' then
        let (negative, digits) := takeSign rest
        (readNatural? digits).map fun size => if negative then -(size : Int) else size
      else none

/-- Reads digits with at most one point among or beside them, and an exponent. At least one digit
has to stand on one side of the point. -/
def read? (text : List Char) : Option Decimal :=
  let (whole, rest) := text.span Char.isDigit
  let (fraction, rest) :=
    match rest with
    | '.' :: rest => rest.span Char.isDigit
    | rest => ([], rest)
  if whole.isEmpty && fraction.isEmpty then none
  else (readExponent? rest).map fun exponent =>
    ⟨ofDigits (whole ++ fraction), exponent - fraction.length⟩

/-- Moves the zeros at the end of the units into the place, `fuel` of them at most. -/
def trimZeros : Nat → Decimal → Decimal
  | 0, number => number
  | fuel + 1, number =>
      if number.units ≠ 0 ∧ number.units % 10 = 0 then
        trimZeros fuel ⟨number.units / 10, number.place + 1⟩
      else number

/-- The positional form of a number whose first digit stands `point` places above the point. There
is a digit on either side of the point, if need be a zero. -/
def writePositional (digits : List Char) (point : Int) : List Char :=
  if point ≤ 0 then
    '0' :: '.' :: List.replicate (-point).toNat '0' ++ digits
  else if digits.length ≤ point.toNat then
    digits ++ List.replicate (point.toNat - digits.length) '0' ++ ['.', '0']
  else digits.take point.toNat ++ '.' :: digits.drop point.toNat

/-- The scientific form: one digit before the point, no point if there is none after it, and the
exponent without a plus sign. -/
def writeScientific (digits : List Char) (point : Int) : List Char :=
  let exponent := point - 1
  let written := digitsOf exponent.natAbs
  digits.take 1 ++ (if digits.length ≤ 1 then [] else '.' :: digits.drop 1) ++
    'e' :: (if exponent < 0 then '-' :: written else written)

/-- Where a number is written with its point in place: `leastPoint` and `greatestPoint` bound the
number of places between the first digit and the point. -/
structure Layout where
  leastPoint : Int
  greatestPoint : Int

/-- A number in positional form within the bounds of `layout` and in scientific form outside. -/
def write (layout : Layout) (number : Decimal) : List Char :=
  let digits := digitsOf number.units
  let point := digits.length + number.place
  if layout.leastPoint ≤ point ∧ point ≤ layout.greatestPoint then writePositional digits point
  else writeScientific digits point

end Decimal

end Bindery.Number
