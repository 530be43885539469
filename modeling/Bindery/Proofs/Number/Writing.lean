import Bindery.Number.Binary64
import Bindery.Number.Integer

set_option autoImplicit false

/-! What numbers are written with. The text of an integer reads back as the integer, and the texts
of integers and of floats hold nothing but digits, signs, points and letters. -/

namespace Bindery.Number

/-! ### Digits -/

theorem isDigit_of_mem_digitsOf {n : Nat} {c : Char} (member : c ∈ digitsOf n) :
    c.isDigit = true :=
  Nat.isDigit_of_mem_toDigits (by decide) (by decide) member

theorem readNatural?_digitsOf (n : Nat) : readNatural? (digitsOf n) = some n := by
  have nonempty : (digitsOf n).isEmpty = false := by
    rw [List.isEmpty_eq_false_iff]
    exact Nat.toDigits_ne_nil
  have digits : (digitsOf n).all Char.isDigit = true :=
    List.all_eq_true.mpr fun _ member => isDigit_of_mem_digitsOf member
  have value : ofDigits (digitsOf n) = n := by
    rw [ofDigits, digitsOf, ← Nat.ofDigitChars_eq_foldl, Nat.ofDigitChars_ten_toDigits]
  rw [readNatural?, nonempty, digits, value]
  rfl

/-- Digits begin with no sign. -/
theorem takeSign_of_digits {digits : List Char} (ascii : ∀ c ∈ digits, c.isDigit = true) :
    takeSign digits = (false, digits) := by
  unfold takeSign
  split
  · cases ascii '-' List.mem_cons_self
  · cases ascii '+' List.mem_cons_self
  · rfl

theorem takeSign_digitsOf (n : Nat) : takeSign (digitsOf n) = (false, digitsOf n) :=
  takeSign_of_digits fun _c => isDigit_of_mem_digitsOf

/-! ### Integers -/

theorem readInteger?_writeInteger (value : Int64) :
    readInteger? (writeInteger value) = some value := by
  have bounds := And.intro value.minValue_le_toInt value.toInt_le
  unfold readInteger? writeInteger
  rw [String.toList_ofList]
  by_cases negative : value.toInt < 0
  · have size : -(value.toInt.natAbs : Int) = value.toInt := by omega
    simp only [if_pos negative, takeSign, readNatural?_digitsOf, if_true, size, if_pos bounds,
      Int64.ofInt_toInt]
  · have size : (value.toInt.natAbs : Int) = value.toInt := by omega
    simp only [if_neg negative, takeSign_digitsOf, readNatural?_digitsOf, Bool.false_eq_true,
      if_false, size, if_pos bounds, Int64.ofInt_toInt]

/-! ### Characters -/

/-- A character in which numbers are written. -/
def Numeric (c : Char) : Prop := c.isDigit = true ∨ c ∈ ['.', '-', 'e', 'N', 'a', 'i', 'n', 'f']

instance (c : Char) : Decidable (Numeric c) := inferInstanceAs (Decidable (_ ∨ _))

theorem numeric_of_all {text : List Char} (all : text.all (fun c => decide (Numeric c)) = true) :
    ∀ c ∈ text, Numeric c :=
  fun c member => of_decide_eq_true (List.all_eq_true.mp all c member)

theorem numeric_digitsOf {n : Nat} {c : Char} (member : c ∈ digitsOf n) : Numeric c :=
  .inl (isDigit_of_mem_digitsOf member)

theorem numeric_writeInteger (value : Int64) : ∀ c ∈ (writeInteger value).toList, Numeric c := by
  intro c member
  rw [writeInteger, String.toList_ofList] at member
  split at member
  · rcases List.mem_cons.mp member with rfl | digit
    · decide
    · exact numeric_digitsOf digit
  · exact numeric_digitsOf member

namespace Decimal

variable {digits : List Char} {c : Char}

theorem numeric_writePositional (numeric : ∀ c ∈ digits, Numeric c) (point : Int)
    (member : c ∈ writePositional digits point) : Numeric c := by
  have zero : Numeric '0' := by decide
  have dot : Numeric '.' := by decide
  unfold writePositional at member
  split at member
  · rcases List.mem_append.mp member with front | digit
    · simp only [List.mem_cons, List.mem_replicate] at front
      rcases front with rfl | rfl | ⟨_some, rfl⟩
      · exact zero
      · exact dot
      · exact zero
    · exact numeric c digit
  · split at member
    · simp only [List.append_assoc, List.mem_append, List.mem_replicate, List.mem_cons,
        List.not_mem_nil, or_false] at member
      rcases member with digit | ⟨_some, rfl⟩ | rfl | rfl
      · exact numeric c digit
      · exact zero
      · exact dot
      · exact zero
    · rcases List.mem_append.mp member with whole | fraction
      · exact numeric c (List.mem_of_mem_take whole)
      · rcases List.mem_cons.mp fraction with rfl | digit
        · exact dot
        · exact numeric c (List.mem_of_mem_drop digit)

theorem numeric_writeScientific (numeric : ∀ c ∈ digits, Numeric c) (point : Int)
    (member : c ∈ writeScientific digits point) : Numeric c := by
  have dot : Numeric '.' := by decide
  have mark : Numeric 'e' := by decide
  have minus : Numeric '-' := by decide
  unfold writeScientific at member
  rcases List.mem_append.mp member with size | exponent
  · rcases List.mem_append.mp size with whole | fraction
    · exact numeric c (List.mem_of_mem_take whole)
    · split at fraction
      · cases fraction
      · rcases List.mem_cons.mp fraction with rfl | digit
        · exact dot
        · exact numeric c (List.mem_of_mem_drop digit)
  · rcases List.mem_cons.mp exponent with rfl | digit
    · exact mark
    · split at digit
      · rcases List.mem_cons.mp digit with rfl | digit
        · exact minus
        · exact numeric_digitsOf digit
      · exact numeric_digitsOf digit

theorem numeric_write (layout : Layout) (number : Decimal) (member : c ∈ number.write layout) :
    Numeric c := by
  unfold write at member
  dsimp only at member
  split at member
  · exact numeric_writePositional (fun _ => numeric_digitsOf) _ member
  · exact numeric_writeScientific (fun _ => numeric_digitsOf) _ member

end Decimal

theorem Binary64.numeric_write (value : Binary64) : ∀ c ∈ value.write.toList, Numeric c := by
  cases value with
  | nan => exact numeric_of_all (by decide)
  | infinite negative => cases negative <;> exact numeric_of_all (by decide)
  | finite negative exponent fraction =>
      intro c member
      have size {c : Char} (member : c ∈ if significand exponent fraction = 0 then ['0', '.', '0']
          else (shortest exponent fraction).write textLayout) : Numeric c := by
        split at member
        · exact numeric_of_all (by decide) c member
        · exact Decimal.numeric_write _ _ member
      rw [write, String.toList_ofList] at member
      cases negative with
      | true =>
          rcases List.mem_cons.mp member with rfl | written
          · decide
          · exact size written
      | false => exact size member

end Bindery.Number
