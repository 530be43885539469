import Bindery.Syntax.Event

set_option autoImplicit false

/-! Starts and finishes in a stream of events. A start is matched if somewhere behind it more nodes
have been finished than started, and counting from the end tells which starts these are. What is
balanced is said by a grammar and not by counting. -/

namespace Bindery.Syntax

namespace Event

def isStart : Event → Bool
  | .start _ => true
  | .token .. | .finish => false

def isFinish : Event → Bool
  | .finish => true
  | .start _ | .token .. => false

end Event

/-! ### Nodes that are finished later -/

/-- Some front of the events finishes more nodes than it starts, by more than `count`. -/
def FinishesOver (count : Nat) (events : List Event) : Prop :=
  ∃ front, front <+: events ∧ front.countP Event.isStart + count < front.countP Event.isFinish

theorem exists_prefix_cons {α : Type} {property : List α → Prop} {item : α} {rest : List α} :
    (∃ front, front <+: item :: rest ∧ property front) ↔
      property [] ∨ ∃ front, front <+: rest ∧ property (item :: front) := by
  constructor
  · rintro ⟨front, isFront, holds⟩
    rcases List.prefix_cons_iff.mp isFront with rfl | ⟨others, rfl, isOthers⟩
    · exact Or.inl holds
    · exact Or.inr ⟨others, isOthers, holds⟩
  · rintro (holds | ⟨front, isFront, holds⟩)
    · exact ⟨[], List.nil_prefix, holds⟩
    · exact ⟨item :: front, List.cons_prefix_cons.mpr ⟨rfl, isFront⟩, holds⟩

section FinishesOver

variable {count : Nat} {kind : Kind} {span : Span} {rest : List Event}

theorem not_finishesOver_nil : ¬ FinishesOver count [] := by
  rintro ⟨front, isFront, exceeds⟩
  rw [List.prefix_nil.mp isFront] at exceeds
  exact Nat.not_lt_zero _ exceeds

/-- An event in front adds its own starts and finishes to those of every other front. -/
theorem finishesOver_cons {event : Event} :
    FinishesOver count (event :: rest) ↔
      ∃ front, front <+: rest ∧
        front.countP Event.isStart + (if event.isStart then 1 else 0) + count <
          front.countP Event.isFinish + if event.isFinish then 1 else 0 := by
  unfold FinishesOver
  rw [exists_prefix_cons]
  simp only [List.countP_cons, List.countP_nil, Nat.not_lt_zero, false_or]

theorem finishesOver_start :
    FinishesOver count (.start kind :: rest) ↔ FinishesOver (count + 1) rest := by
  rw [finishesOver_cons]
  simp only [Event.isStart, Event.isFinish, if_true, Bool.false_eq_true, if_false, Nat.add_zero,
    Nat.add_assoc, Nat.add_comm 1 count]
  rfl

theorem finishesOver_token :
    FinishesOver count (.token kind span :: rest) ↔ FinishesOver count rest := by
  rw [finishesOver_cons]
  simp only [Event.isStart, Event.isFinish, Bool.false_eq_true, if_false, Nat.add_zero]
  rfl

theorem finishesOver_finish_zero : FinishesOver 0 (.finish :: rest) :=
  finishesOver_cons.mpr ⟨[], List.nil_prefix, Nat.zero_lt_one⟩

theorem finishesOver_finish_succ :
    FinishesOver (count + 1) (.finish :: rest) ↔ FinishesOver count rest := by
  rw [finishesOver_cons]
  simp only [Event.isStart, Event.isFinish, Bool.false_eq_true, if_false, if_true, Nat.add_zero,
    ← Nat.add_assoc, Nat.add_lt_add_iff_right]
  rfl

end FinishesOver

/-- The number of nodes that were open before the events and are finished in them. -/
def finishedBefore : List Event → Nat
  | [] => 0
  | .start _ :: rest => finishedBefore rest - 1
  | .token .. :: rest => finishedBefore rest
  | .finish :: rest => finishedBefore rest + 1

theorem lt_finishedBefore_iff (count : Nat) (events : List Event) :
    count < finishedBefore events ↔ FinishesOver count events := by
  induction events generalizing count with
  | nil => exact iff_of_false (Nat.not_lt_zero _) not_finishesOver_nil
  | cons event rest ih =>
      cases event with
      | start kind =>
          rw [finishedBefore, finishesOver_start, ← ih]
          exact Nat.lt_sub_iff_add_lt
      | token kind span => rw [finishedBefore, finishesOver_token, ← ih]
      | finish =>
          rw [finishedBefore]
          cases count with
          | zero => exact iff_of_true (Nat.succ_pos _) finishesOver_finish_zero
          | succ count => rw [finishesOver_finish_succ, ← ih, Nat.add_lt_add_iff_right]

theorem finishedBefore_eq_zero_iff (events : List Event) :
    finishedBefore events = 0 ↔
      ∀ front, front <+: events →
        front.countP Event.isFinish ≤ front.countP Event.isStart := by
  rw [← Nat.le_zero, ← Nat.not_lt, lt_finishedBefore_iff]
  unfold FinishesOver
  simp only [not_exists, not_and, Nat.add_zero, Nat.not_lt]

instance (count : Nat) : DecidablePred (FinishesOver count) := fun events =>
  decidable_of_iff (count < finishedBefore events) (lt_finishedBefore_iff count events)

/-- The events without the starts of nodes that are never finished. What follows the start of a node
finishes it as soon as it has finished more nodes than it has started. -/
def withoutUnfinished : List Event → List Event
  | [] => []
  | .start kind :: rest =>
      if FinishesOver 0 rest then .start kind :: withoutUnfinished rest else withoutUnfinished rest
  | event :: rest => event :: withoutUnfinished rest

theorem withoutUnfinished_sublist (events : List Event) :
    (withoutUnfinished events).Sublist events := by
  induction events with
  | nil => exact List.Sublist.refl _
  | cons event rest ih =>
      cases event with
      | start kind =>
          rw [withoutUnfinished]
          split
          · exact ih.cons_cons _
          · exact ih.cons _
      | token kind span => exact ih.cons_cons _
      | finish => exact ih.cons_cons _

/-! ### Balanced events -/

/-- Every node that starts in the events is finished in them, and no other node is. -/
inductive Balanced : List Event → Prop
  | nil : Balanced []
  | token (kind : Kind) (span : Span) {rest : List Event} (after : Balanced rest) :
      Balanced (.token kind span :: rest)
  | node (kind : Kind) {inner rest : List Event} (inside : Balanced inner)
      (after : Balanced rest) : Balanced (.start kind :: inner ++ .finish :: rest)

namespace Balanced

variable {events left right : List Event}

theorem append (first : Balanced left) (second : Balanced right) : Balanced (left ++ right) := by
  induction first with
  | nil => exact second
  | token kind span _after ih => exact .token kind span ih
  | node kind inside _after _ihInside ihAfter =>
      rw [List.append_assoc]
      exact .node kind inside ihAfter

/-- Nothing that is open before balanced events is finished in them. -/
theorem finishedBefore_append (balanced : Balanced events) (rest : List Event) :
    finishedBefore (events ++ rest) = finishedBefore rest := by
  induction balanced generalizing rest with
  | nil => rfl
  | token kind span _after ih => exact ih rest
  | node kind _inside _after ihInside ihAfter =>
      rw [List.append_assoc, List.cons_append, finishedBefore, ihInside, List.cons_append,
        finishedBefore, ihAfter, Nat.add_sub_cancel]

/-- Every node that starts in balanced events is finished, whatever follows them. -/
theorem withoutUnfinished_append (balanced : Balanced events) (rest : List Event) :
    withoutUnfinished (events ++ rest) = events ++ withoutUnfinished rest := by
  induction balanced generalizing rest with
  | nil => rfl
  | token kind span _after ih => exact congrArg (Event.token kind span :: ·) (ih rest)
  | @node kind inner behind inside _after ihInside ihAfter =>
      have finished : FinishesOver 0 (inner ++ (.finish :: behind ++ rest)) := by
        rw [← lt_finishedBefore_iff, inside.finishedBefore_append]
        exact Nat.succ_pos _
      have follows : withoutUnfinished (.finish :: behind ++ rest) =
          .finish :: behind ++ withoutUnfinished rest :=
        congrArg (Event.finish :: ·) (ihAfter rest)
      rw [List.append_assoc, List.cons_append, withoutUnfinished, if_pos finished, ihInside,
        follows, List.append_assoc]
      rfl

end Balanced

/-- The events of one complete node. -/
def IsNode (events : List Event) : Prop :=
  ∃ kind inner, Balanced inner ∧ events = .start kind :: inner ++ [.finish]

end Bindery.Syntax
