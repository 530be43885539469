import Bindery.Span

set_option autoImplicit false

/-! Cutting a text at byte offsets. A cut succeeds only between two characters. -/

namespace Bindery.Text

/-- What follows the first `count` bytes, if they end between two characters. -/
def dropBytes : Nat → List Char → Option (List Char)
  | 0, rest => some rest
  | _ + 1, [] => none
  | count + 1, c :: rest =>
      if c.utf8Size ≤ count + 1 then dropBytes (count + 1 - c.utf8Size) rest else none

/-- The characters in the first `count` bytes, if those end between two characters. -/
def takeBytes : Nat → List Char → Option (List Char)
  | 0, _ => some []
  | _ + 1, [] => none
  | count + 1, c :: rest =>
      if c.utf8Size ≤ count + 1 then
        (takeBytes (count + 1 - c.utf8Size) rest).map (c :: ·)
      else none

private theorem utf8Size_pos (c : Char) : 0 < c.utf8Size := Char.utf8Size_pos c

theorem dropBytes_append (front rest : List Char) :
    dropBytes (String.ofList front).utf8ByteSize (front ++ rest) = some rest := by
  induction front with
  | nil => cases rest <;> rfl
  | cons c front ih =>
      rw [String.ofList_cons, String.utf8ByteSize_append, String.utf8ByteSize_singleton]
      obtain ⟨size, sizeEq⟩ := Nat.exists_eq_succ_of_ne_zero (Nat.ne_of_gt (utf8Size_pos c))
      rw [List.cons_append, sizeEq, Nat.succ_add, dropBytes, sizeEq]
      rw [if_pos (by omega)]
      have remainder : size + (String.ofList front).utf8ByteSize + 1 - (size + 1) =
          (String.ofList front).utf8ByteSize := by omega
      rw [Nat.succ_eq_add_one, remainder, ih]

theorem takeBytes_append (front rest : List Char) :
    takeBytes (String.ofList front).utf8ByteSize (front ++ rest) = some front := by
  induction front with
  | nil => cases rest <;> rfl
  | cons c front ih =>
      rw [String.ofList_cons, String.utf8ByteSize_append, String.utf8ByteSize_singleton]
      obtain ⟨size, sizeEq⟩ := Nat.exists_eq_succ_of_ne_zero (Nat.ne_of_gt (utf8Size_pos c))
      rw [List.cons_append, sizeEq, Nat.succ_add, takeBytes, sizeEq]
      rw [if_pos (by omega)]
      have remainder : size + (String.ofList front).utf8ByteSize + 1 - (size + 1) =
          (String.ofList front).utf8ByteSize := by omega
      rw [Nat.succ_eq_add_one, remainder, ih, Option.map_some]

/-- The text under a span; `none` if the span is reversed, runs past the end or cuts a character. -/
def slice (text : String) (span : Span) : Option String :=
  if span.start ≤ span.stop then do
    let rest ← dropBytes span.start text.toList
    let part ← takeBytes (span.stop - span.start) rest
    return String.ofList part
  else none

/-- A text in the middle of a longer one lies under the span that its neighbours leave. -/
theorem slice_append (before middle after : String) :
    slice (before ++ middle ++ after)
      ⟨before.utf8ByteSize, before.utf8ByteSize + middle.utf8ByteSize⟩ = some middle := by
  have dropped := dropBytes_append before.toList (middle.toList ++ after.toList)
  have taken := takeBytes_append middle.toList after.toList
  rw [String.ofList_toList] at dropped taken
  simp [slice, dropped, taken]

end Bindery.Text
