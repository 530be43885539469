import Bindery.Proofs.Number.Writing
import Bindery.Text.Quoted
import Bindery.Text.Truth

set_option autoImplicit false

/-! Texts that stay within one line, and texts made of lines. A quoted text stays within one line
whatever it quotes, and so does everything that is written with numbers; a text made of such lines,
each with its end, gives them back when it is split where lines end. -/

namespace Bindery.Text

/-- A text that stays within one line. -/
def Unbroken (text : String) : Prop := '\n' ∉ text.toList

instance : DecidablePred Unbroken := fun text => inferInstanceAs (Decidable (¬ _ ∈ text.toList))

variable {left right text separator : String} {texts : List String}

theorem unbroken_append : Unbroken (left ++ right) ↔ Unbroken left ∧ Unbroken right := by
  rw [Unbroken, String.toList_append, List.mem_append, not_or]
  rfl

theorem unbroken_join : Unbroken (String.join texts) ↔ ∀ text ∈ texts, Unbroken text := by
  rw [Unbroken, String.toList_join, List.mem_flatMap]
  simp only [not_exists, not_and, Unbroken]

theorem unbroken_intercalate (within : Unbroken separator) :
    Unbroken (String.intercalate separator texts) ↔ ∀ text ∈ texts, Unbroken text := by
  induction texts with
  | nil => simp [Unbroken]
  | cons first rest ih =>
      cases rest with
      | nil => rw [String.intercalate_singleton, List.forall_mem_singleton]
      | cons second rest =>
          rw [String.intercalate_cons_cons, unbroken_append, unbroken_append, ih,
            List.forall_mem_cons (l := second :: rest)]
          simp only [within, and_true]

/-! ### Numbers, truth values and quotations -/

theorem unbroken_of_numeric (numeric : ∀ c ∈ text.toList, Number.Numeric c) : Unbroken text := by
  intro broken
  exact absurd (numeric '\n' broken) (by decide)

theorem unbroken_truth (value : Bool) : Unbroken (truth value) := by
  cases value <;> decide

theorem newline_notMem_hexDigits (n : Nat) : '\n' ∉ hexDigits n := by
  unfold hexDigits
  induction n using Nat.strongRecOn with
  | ind n ih =>
      rw [Nat.toDigits_eq_if (by decide)]
      split
      · rw [List.mem_singleton]
        exact (Nat.digitChar_ne '\n' (by decide)).symm
      · rename_i large
        rw [List.mem_append, List.mem_singleton, not_or]
        exact ⟨ih (n / 16) (by omega), (Nat.digitChar_ne '\n' (by decide)).symm⟩

/-- A line break is the one character that could end the line, and it is escaped as any other that
cannot be seen. -/
theorem newline_notMem_escapeChar (c : Char) : '\n' ∉ escapeChar c := by
  by_cases newline : c = '\n'
  · subst newline
    decide
  · have hexadecimal : '\n' ∉ ['\\', 'u', '\x7b'] ++ hexDigits c.toNat ++ ['\x7d'] := by
      rw [List.mem_append, List.mem_append, not_or, not_or]
      exact ⟨⟨by decide, newline_notMem_hexDigits _⟩, by decide⟩
    have itself : '\n' ∉ [c] := by
      rw [List.mem_singleton]
      exact Ne.symm newline
    unfold escapeChar
    repeat' split
    all_goals first | exact itself | exact hexadecimal | decide

theorem unbroken_quote (text : String) : Unbroken (quote text) := by
  rw [Unbroken, quote, String.toList_ofList]
  simp only [List.cons_append, List.mem_cons, List.mem_append, List.mem_flatMap, not_or,
    not_exists, not_and]
  exact ⟨by decide, fun c _member => newline_notMem_escapeChar c, by decide⟩

/-! ### Texts made of lines -/

/-- The text in which every line has its end. -/
def ofLines (lines : List String) : String := String.join (lines.map fun line => line ++ "\n")

theorem toList_ofLines_cons (line : String) (rest : List String) :
    (ofLines (line :: rest)).toList = line.toList ++ '\n' :: (ofLines rest).toList := by
  rw [ofLines, List.map_cons, String.toList_join, List.flatMap_cons, String.toList_append,
    List.append_assoc, ofLines, String.toList_join]
  rfl

theorem count_newline_ofLines {lines : List String} (unbroken : ∀ line ∈ lines, Unbroken line) :
    (ofLines lines).toList.count '\n' = lines.length := by
  induction lines with
  | nil => rfl
  | cons line rest ih =>
      rw [List.forall_mem_cons] at unbroken
      rw [toList_ofLines_cons, List.count_append, List.count_cons_self, ih unbroken.2,
        List.count_eq_zero_of_not_mem unbroken.1, List.length_cons, Nat.zero_add]

/-- The lines of a text come back when it is cut where lines end. Nothing follows the last end. -/
theorem splitOn_ofLines {lines : List String} (unbroken : ∀ line ∈ lines, Unbroken line) :
    (ofLines lines).toList.splitOn '\n' = lines.map String.toList ++ [[]] := by
  induction lines with
  | nil => rfl
  | cons line rest ih =>
      rw [List.forall_mem_cons] at unbroken
      rw [toList_ofLines_cons, List.splitOn_append_cons_self_of_not_mem unbroken.1, ih unbroken.2]
      rfl

end Bindery.Text
