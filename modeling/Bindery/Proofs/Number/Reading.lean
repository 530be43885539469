import Bindery.Proofs.Number.Writing
import Mathlib.Data.Nat.Digits.Defs

set_option autoImplicit false

/-! Which texts are integers. A grammar says what a text denotes: at most one sign and then digits,
each worth its place. Reading finds the value that a text denotes if it is one of a 64-bit integer,
and nothing otherwise; the text that is written denotes the integer. -/

namespace Bindery.Number

/-! ### The grammar of integers -/

def digitValue (c : Char) : Nat := c.toNat - '0'.toNat

/-- Digits and the number that they stand for, the last digit in the lowest place. Zeros may stand
in front. -/
structure Numeral (digits : List Char) (value : Nat) : Prop where
  nonempty : digits ≠ []
  ascii : ∀ c ∈ digits, c.isDigit = true
  places : Nat.ofDigits 10 (digits.reverse.map digitValue) = value

/-- What a text denotes that has one sign at most, and then digits. -/
inductive Denotes : List Char → Int → Prop where
  | unsigned {digits : List Char} {value : Nat} :
      Numeral digits value → Denotes digits value
  | plus {digits : List Char} {value : Nat} :
      Numeral digits value → Denotes ('+' :: digits) value
  | minus {digits : List Char} {value : Nat} :
      Numeral digits value → Denotes ('-' :: digits) (-value)

/-- A text of an integer that has 64 bits. -/
def IsInteger (text : String) : Prop :=
  ∃ value : Int, Denotes text.toList value ∧ -2 ^ 63 ≤ value ∧ value < 2 ^ 63

/-! ### Digits -/

theorem ofDigits_eq_places (digits : List Char) :
    ofDigits digits = Nat.ofDigits 10 (digits.reverse.map digitValue) := by
  rw [Nat.ofDigits_eq_foldr, List.foldr_map, List.foldr_reverse, ofDigits]
  simp only [Nat.add_comm, digitValue, Nat.cast_id]

theorem readNatural?_eq_some_iff {digits : List Char} {value : Nat} :
    readNatural? digits = some value ↔ Numeral digits value := by
  unfold readNatural?
  rw [Option.ite_none_right_eq_some, Bool.and_eq_true, Bool.not_eq_true', List.isEmpty_eq_false_iff,
    List.all_eq_true, Option.some.injEq, ofDigits_eq_places]
  constructor
  · rintro ⟨⟨nonempty, ascii⟩, places⟩
    exact ⟨nonempty, ascii, places⟩
  · rintro ⟨nonempty, ascii, places⟩
    exact ⟨⟨nonempty, ascii⟩, places⟩

/-! ### Signs -/

theorem denotes_iff {text : List Char} {value : Int} :
    Denotes text value ↔ ∃ size, Numeral (takeSign text).2 size ∧
      value = if (takeSign text).1 then -(size : Int) else size := by
  constructor
  · intro denotes
    cases denotes with
    | unsigned numeral =>
        have noSign : takeSign text = (false, text) := takeSign_of_digits numeral.ascii
        rw [noSign]
        exact ⟨_, numeral, rfl⟩
    | plus numeral => exact ⟨_, numeral, rfl⟩
    | minus numeral => exact ⟨_, numeral, rfl⟩
  · rintro ⟨size, numeral, rfl⟩
    unfold takeSign at numeral ⊢
    split at numeral
    · exact .minus numeral
    · exact .plus numeral
    · exact .unsigned numeral

/-! ### Integers -/

/-- Reading refuses a value out of range, and never wraps it. -/
theorem readInteger?_eq_some_iff {text : String} {value : Int64} :
    readInteger? text = some value ↔ Denotes text.toList value.toInt := by
  have low := value.minValue_le_toInt
  have high := value.toInt_le
  rw [denotes_iff]
  unfold readInteger?
  obtain ⟨negative, digits⟩ := takeSign text.toList
  simp only [← readNatural?_eq_some_iff]
  cases readNatural? digits with
  | none => simp only [reduceCtorEq, false_and, exists_false]
  | some size =>
      simp only [Option.some.injEq, exists_eq_left']
      generalize (if negative = true then -(size : Int) else size) = signed
      rw [Option.ite_none_right_eq_some, Option.some.injEq]
      constructor
      · rintro ⟨⟨above, below⟩, rfl⟩
        exact Int64.toInt_ofInt_of_le above (Int.lt_add_one_of_le below)
      · rintro rfl
        exact ⟨⟨low, high⟩, Int64.ofInt_toInt value⟩

theorem isSome_readInteger? (text : String) :
    (readInteger? text).isSome = true ↔ IsInteger text := by
  rw [Option.isSome_iff_exists]
  simp only [readInteger?_eq_some_iff]
  constructor
  · rintro ⟨value, denotes⟩
    exact ⟨value.toInt, denotes, value.minValue_le_toInt, Int.lt_add_one_of_le value.toInt_le⟩
  · rintro ⟨value, denotes, low, high⟩
    refine ⟨Int64.ofInt value, ?_⟩
    rw [Int64.toInt_ofInt_of_le low high]
    exact denotes

instance : DecidablePred IsInteger := fun text => decidable_of_iff _ (isSome_readInteger? text)

-- The bounds of the range, with zeros in front, and what lies next to them.
example : IsInteger "-9223372036854775808" ∧ IsInteger "+0009223372036854775807" ∧
    ¬ IsInteger "-9223372036854775809" ∧ ¬ IsInteger "9223372036854775808" := by decide

/-- The text that is written is the decimal text of the integer. -/
theorem writeInteger_eq_toString (value : Int64) : writeInteger value = toString value.toInt := by
  unfold writeInteger digitsOf
  cases value.toInt with
  | ofNat size =>
      rw [Int.ofNat_eq_natCast, if_neg (Int.not_lt.mpr (Int.natCast_nonneg size))]
      exact Nat.repr_eq_ofList_toDigits.symm
  | negSucc size =>
      rw [if_pos (Int.negSucc_lt_zero size), String.ofList_cons]
      exact congrArg ("-" ++ ·) Nat.repr_eq_ofList_toDigits.symm

theorem denotes_toString (value : Int64) : Denotes (toString value.toInt).toList value.toInt := by
  rw [← readInteger?_eq_some_iff, ← writeInteger_eq_toString, readInteger?_writeInteger]

end Bindery.Number
