import Bindery.Proofs.Text.Placement

set_option autoImplicit false

/-! When a text can be cut: exactly if the span lies inside it. What is cut out then stands where
the span starts, and fills it. -/

namespace Bindery.Text

theorem size_cons (c : Char) (chars : List Char) :
    (String.ofList (c :: chars)).utf8ByteSize =
      c.utf8Size + (String.ofList chars).utf8ByteSize := by
  rw [String.ofList_cons, String.utf8ByteSize_append, String.utf8ByteSize_singleton]

theorem dropBytes_eq_some {count : Nat} {chars rest : List Char}
    (dropped : dropBytes count chars = some rest) :
    ∃ front, chars = front ++ rest ∧ count = (String.ofList front).utf8ByteSize := by
  induction chars generalizing count with
  | nil =>
      cases count with
      | zero => exact ⟨[], Option.some.inj dropped, rfl⟩
      | succ count => cases dropped
  | cons c chars ih =>
      cases count with
      | zero => exact ⟨[], Option.some.inj dropped, rfl⟩
      | succ count =>
          rw [dropBytes] at dropped
          split at dropped
          · obtain ⟨front, split, size⟩ := ih dropped
            refine ⟨c :: front, by rw [split, List.cons_append], ?_⟩
            rw [size_cons]
            omega
          · cases dropped

theorem takeBytes_eq_some {count : Nat} {chars front : List Char}
    (taken : takeBytes count chars = some front) :
    ∃ rest, chars = front ++ rest ∧ count = (String.ofList front).utf8ByteSize := by
  induction chars generalizing count front with
  | nil =>
      cases count with
      | zero =>
          obtain rfl := Option.some.inj taken
          exact ⟨[], rfl, rfl⟩
      | succ count => cases taken
  | cons c chars ih =>
      cases count with
      | zero =>
          obtain rfl := Option.some.inj taken
          exact ⟨c :: chars, rfl, rfl⟩
      | succ count =>
          rw [takeBytes] at taken
          split at taken
          · obtain ⟨others, found, rfl⟩ := Option.map_eq_some_iff.mp taken
            obtain ⟨rest, split, size⟩ := ih found
            refine ⟨rest, by rw [split, List.cons_append], ?_⟩
            rw [size_cons]
            omega
          · cases taken

theorem slice_eq_some_iff {text piece : String} {span : Span} :
    slice text span = some piece ↔
      StandsAt text piece span.start ∧ span.stop = span.start + piece.utf8ByteSize := by
  constructor
  · intro cut
    unfold slice at cut
    split at cut
    · obtain ⟨rest, dropped, cut⟩ := Option.bind_eq_some_iff.mp cut
      obtain ⟨part, taken, piecePart⟩ := Option.bind_eq_some_iff.mp cut
      obtain rfl := Option.some.inj piecePart
      obtain ⟨front, textSplit, startSize⟩ := dropBytes_eq_some dropped
      obtain ⟨after, restSplit, partSize⟩ := takeBytes_eq_some taken
      refine ⟨⟨String.ofList front, String.ofList after, ?_, startSize⟩, by omega⟩
      rw [← String.ofList_append, ← String.ofList_append, List.append_assoc, ← restSplit,
        ← textSplit, String.ofList_toList]
    · cases cut
  · rintro ⟨stands, stop⟩
    have cut := stands.slice
    rw [← stop] at cut
    exact cut

theorem isSome_slice_iff {text : String} {span : Span} :
    (slice text span).isSome = true ↔ span.Inside text := by
  rw [Option.isSome_iff_exists]
  constructor
  · rintro ⟨piece, cut⟩
    obtain ⟨stands, stop⟩ := slice_eq_some_iff.mp cut
    have inside := stands.inside
    rw [← stop] at inside
    exact inside
  · intro inside
    obtain ⟨before, rest, split, startPlace⟩ :=
      String.Pos.Raw.isValid_iff_exists_append.mp inside.startValid
    obtain ⟨front, after, otherSplit, stopPlace⟩ :=
      String.Pos.Raw.isValid_iff_exists_append.mp inside.stopValid
    have startSize : span.start = before.utf8ByteSize := congrArg String.Pos.Raw.byteIdx startPlace
    have stopSize : span.stop = front.utf8ByteSize := congrArg String.Pos.Raw.byteIdx stopPlace
    have ordered := inside.ordered
    have lists := congrArg String.toList (split.symm.trans otherSplit)
    rw [String.toList_append, String.toList_append, List.append_eq_append_iff] at lists
    -- One of the two fronts goes on from the other; the span is ordered, so it is the second.
    rcases lists with ⟨piece, frontEq, _restEq⟩ | ⟨piece, beforeEq, _afterEq⟩
    · have frontSplit : front = before ++ String.ofList piece := by
        rw [← String.toList_inj, frontEq, String.toList_append, String.toList_ofList]
      refine ⟨String.ofList piece, slice_eq_some_iff.mpr ⟨⟨before, after, ?_, startSize⟩, ?_⟩⟩
      · rw [← frontSplit, otherSplit]
      · rw [stopSize, startSize, frontSplit, String.utf8ByteSize_append]
    · have beforeSplit : before = front ++ String.ofList piece := by
        rw [← String.toList_inj, beforeEq, String.toList_append, String.toList_ofList]
      have sizes := String.utf8ByteSize_append (s := front) (t := String.ofList piece)
      rw [← beforeSplit] at sizes
      refine ⟨"", slice_eq_some_iff.mpr ⟨⟨before, rest, ?_, startSize⟩, ?_⟩⟩
      · rw [String.append_empty, split]
      · rw [String.utf8ByteSize_empty]
        omega

end Bindery.Text
