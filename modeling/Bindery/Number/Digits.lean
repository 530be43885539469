set_option autoImplicit false

/-! Runs of decimal digits and the natural numbers they stand for. -/

namespace Bindery.Number

def ofDigits (digits : List Char) : Nat :=
  digits.foldl (fun value digit => 10 * value + (digit.toNat - '0'.toNat)) 0

/-- The number whose digits are all of `text`; `none` for the empty text and for any other
character. -/
def readNatural? (text : List Char) : Option Nat :=
  if !text.isEmpty && text.all Char.isDigit then some (ofDigits text) else none

/-- The digits of a number, without leading zeros; zero has one digit. -/
def digitsOf (n : Nat) : List Char := Nat.toDigits 10 n

/-- Splits off one sign, and says whether it was a minus. -/
def takeSign : List Char → Bool × List Char
  | '-' :: rest => (true, rest)
  | '+' :: rest => (false, rest)
  | rest => (false, rest)

end Bindery.Number
