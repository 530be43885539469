import Bindery.Number.Digits

set_option autoImplicit false

/-! The texts of 64-bit integers: at most one sign, then ASCII digits. -/

namespace Bindery.Number

/-- Reads a signed 64-bit integer. A value outside the range is refused, never wrapped. -/
def readInteger? (text : String) : Option Int64 :=
  let (negative, digits) := takeSign text.toList
  match readNatural? digits with
  | none => none
  | some size =>
      let value : Int := if negative then -size else size
      if Int64.minValue.toInt ≤ value ∧ value ≤ Int64.maxValue.toInt then some (Int64.ofInt value)
      else none

/-- The decimal text of a 64-bit integer: a minus sign for a negative one, no leading zeros. -/
def writeInteger (value : Int64) : String :=
  String.ofList <|
    if value.toInt < 0 then '-' :: digitsOf value.toInt.natAbs else digitsOf value.toInt.natAbs

end Bindery.Number
