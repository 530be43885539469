import Bindery.Text.Slice

set_option autoImplicit false

/-! Pieces of a text at their offsets. A piece that stands at an offset is what is cut out there,
and both of its ends lie between two characters. -/

namespace Bindery

namespace Text

/-- A piece of a text, at the offset where it starts. -/
def StandsAt (text piece : String) (offset : Nat) : Prop :=
  ∃ before after, text = before ++ piece ++ after ∧ offset = before.utf8ByteSize

namespace StandsAt

variable {text first second piece : String} {offset : Nat}

theorem whole (text : String) : StandsAt text text 0 :=
  ⟨"", "", by rw [String.empty_append, String.append_empty], rfl⟩

theorem left (stands : StandsAt text (first ++ second) offset) : StandsAt text first offset := by
  obtain ⟨before, after, split, place⟩ := stands
  exact ⟨before, second ++ after, by rw [split, String.append_assoc, String.append_assoc,
    String.append_assoc], place⟩

theorem right (stands : StandsAt text (first ++ second) offset) :
    StandsAt text second (offset + first.utf8ByteSize) := by
  obtain ⟨before, after, split, place⟩ := stands
  refine ⟨before ++ first, after, ?_, ?_⟩
  · rw [split, ← String.append_assoc]
  · rw [place, String.utf8ByteSize_append]

theorem slice (stands : StandsAt text piece offset) :
    slice text ⟨offset, offset + piece.utf8ByteSize⟩ = some piece := by
  obtain ⟨before, after, rfl, rfl⟩ := stands
  exact slice_append before piece after

end StandsAt

/-- A text of which a first part is known. -/
def BeginsWith (text front : String) : Prop := ∃ rest, text = front ++ rest

namespace BeginsWith

variable {text front piece : String}

theorem whole (text : String) : BeginsWith text text := ⟨"", String.append_empty.symm⟩

theorem left (begins : BeginsWith text (front ++ piece)) : BeginsWith text front := by
  obtain ⟨rest, split⟩ := begins
  exact ⟨piece ++ rest, by rw [split, String.append_assoc]⟩

theorem stands (begins : BeginsWith text (front ++ piece)) :
    StandsAt text piece front.utf8ByteSize := by
  obtain ⟨rest, split⟩ := begins
  exact ⟨front, rest, split, rfl⟩

end BeginsWith

end Text

/-- A span that covers whole characters of a text. -/
structure Span.Inside (text : String) (span : Span) : Prop where
  ordered : span.start ≤ span.stop
  bounded : span.stop ≤ text.utf8ByteSize
  startValid : String.Pos.Raw.IsValid text ⟨span.start⟩
  stopValid : String.Pos.Raw.IsValid text ⟨span.stop⟩

theorem Text.StandsAt.inside {text piece : String} {offset : Nat}
    (stands : StandsAt text piece offset) :
    Span.Inside text ⟨offset, offset + piece.utf8ByteSize⟩ := by
  obtain ⟨before, after, rfl, rfl⟩ := stands
  refine ⟨Nat.le_add_right _ _, ?_, ?_, ?_⟩
  · rw [String.utf8ByteSize_append, String.utf8ByteSize_append]
    exact Nat.le_add_right _ _
  · rw [String.Pos.Raw.isValid_iff_exists_append]
    exact ⟨before, piece ++ after, String.append_assoc, rfl⟩
  · rw [String.Pos.Raw.isValid_iff_exists_append]
    refine ⟨before ++ piece, after, rfl, ?_⟩
    rw [← String.utf8ByteSize_append]
    rfl

/-! ### Spans among each other -/

namespace Span

structure Within (inner outer : Span) : Prop where
  start_le : outer.start ≤ inner.start
  stop_le : inner.stop ≤ outer.stop

def Before (first second : Span) : Prop := first.stop ≤ second.start

theorem Within.refl (span : Span) : span.Within span := ⟨Nat.le_refl _, Nat.le_refl _⟩

theorem Within.trans {inner middle outer : Span} (first : inner.Within middle)
    (second : middle.Within outer) : inner.Within outer :=
  ⟨Nat.le_trans second.start_le first.start_le, Nat.le_trans first.stop_le second.stop_le⟩

theorem Before.of_within {first second left right : Span} (apart : first.Before second)
    (leftWithin : left.Within first) (rightWithin : right.Within second) : left.Before right := by
  have leftStop := leftWithin.stop_le
  have rightStart := rightWithin.start_le
  unfold Before at apart ⊢
  omega

/-- Two spans that stand apart are covered from the start of the first to the stop of the second. -/
theorem Before.join {first second : Span} (apart : first.Before second)
    (firstOrdered : first.start ≤ first.stop) (secondOrdered : second.start ≤ second.stop) :
    first.join second = ⟨first.start, second.stop⟩ := by
  unfold Before at apart
  rw [Span.join, Nat.min_eq_left (by omega), Nat.max_eq_right (by omega)]

end Span

/-- The span that covers two others starts and stops where one of them does. -/
theorem Span.Inside.join {text : String} {left right : Span} (leftInside : left.Inside text)
    (rightInside : right.Inside text) : (left.join right).Inside text where
  ordered := by
    have leftOrdered := leftInside.ordered
    unfold Span.join
    dsimp only
    omega
  bounded := Nat.max_le.mpr ⟨leftInside.bounded, rightInside.bounded⟩
  startValid := by
    unfold Span.join
    rcases Nat.le_total left.start right.start with first | first
    · rw [Nat.min_eq_left first]
      exact leftInside.startValid
    · rw [Nat.min_eq_right first]
      exact rightInside.startValid
  stopValid := by
    unfold Span.join
    rcases Nat.le_total left.stop right.stop with last | last
    · rw [Nat.max_eq_right last]
      exact rightInside.stopValid
    · rw [Nat.max_eq_left last]
      exact leftInside.stopValid

end Bindery
