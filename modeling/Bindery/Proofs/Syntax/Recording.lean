import Bindery.Proofs.Syntax.RoundTrip
import Bindery.Syntax.Recorder

set_option autoImplicit false

/-! What a recorder can hold. Its depth is the number of nodes that are open behind the events it
has taken, so these are well nested, whatever it was called with and whatever it refused. A replay
sees the events only, and finds an open node at every finish. -/

namespace Bindery.Syntax

/-! ### Which nodes are closed -/

/-- Behind complete nodes and tokens the events finish the node that started in front of them, and
then go on with `after`. -/
def Closes (after events : List Event) : Prop :=
  ∃ inner, Balanced inner ∧ events = inner ++ .finish :: after

/-- Every node that starts in the events is finished in them. -/
def EachClosed (events : List Event) : Prop :=
  ∀ before kind rest, events = before ++ .start kind :: rest → ∃ after, Closes after rest

theorem Balanced.eachClosed {events : List Event} (balanced : Balanced events) :
    EachClosed events := by
  induction balanced with
  | nil =>
      intro before kind rest split
      exact absurd split.symm (List.append_ne_nil_of_right_ne_nil _ (List.cons_ne_nil _ _))
  | token kind span _after ih =>
      intro before opened rest split
      cases before with
      | nil => cases split
      | cons first others => exact ih others opened rest (List.cons.inj split).2
  | @node kind inner behind inside _after ihInside ihAfter =>
      intro before opened rest split
      cases before with
      | nil => exact ⟨behind, inner, inside, (List.cons.inj split).2.symm⟩
      | cons first others =>
          -- The start stands inside the node, or behind its finish.
          rcases List.append_eq_append_iff.mp (List.cons.inj split).2 with
            ⟨middle, othersEq, behindEq⟩ | ⟨middle, innerEq, restEq⟩
          · cases middle with
            | nil => cases behindEq
            | cons last middle => exact ihAfter middle opened rest (List.cons.inj behindEq).2
          · cases middle with
            | nil => cases restEq
            | cons start middle =>
                obtain ⟨rfl, rfl⟩ := List.cons.inj restEq
                obtain ⟨after, closed, complete, closes⟩ := ihInside others opened middle innerEq
                refine ⟨after ++ .finish :: behind, closed, complete, ?_⟩
                rw [closes]
                exact List.append_assoc closed _ _

/-! ### Events that leave nodes open -/

/-- Events in which every finish belongs to a start, and behind which `depth` nodes are open.
Between the starts of these there are complete nodes and tokens only. -/
inductive LeavesOpen : Nat → List Event → Prop
  | none {events : List Event} (complete : Balanced events) : LeavesOpen 0 events
  | inside {depth : Nat} {outer inner : List Event} (around : LeavesOpen depth outer)
      (kind : Kind) (complete : Balanced inner) :
      LeavesOpen (depth + 1) (outer ++ .start kind :: inner)

namespace LeavesOpen

variable {depth : Nat} {events more : List Event}

theorem append (opened : LeavesOpen depth events) (complete : Balanced more) :
    LeavesOpen depth (events ++ more) := by
  cases opened with
  | none before => exact .none (before.append complete)
  | inside around kind before =>
      rw [List.append_assoc]
      exact .inside around kind (before.append complete)

theorem start (opened : LeavesOpen depth events) (kind : Kind) :
    LeavesOpen (depth + 1) (events ++ [.start kind]) :=
  .inside opened kind .nil

theorem token (opened : LeavesOpen depth events) (kind : Kind) (span : Span) :
    LeavesOpen depth (events ++ [.token kind span]) :=
  opened.append (.token kind span .nil)

/-- A finish completes the innermost open node, which then stands inside the next one. -/
theorem finish (opened : LeavesOpen (depth + 1) events) :
    LeavesOpen depth (events ++ [.finish]) := by
  cases opened with
  | inside around kind complete =>
      rw [List.append_assoc]
      exact around.append (.node kind complete .nil)

theorem finishedBefore_append (opened : LeavesOpen depth events) (rest : List Event) :
    finishedBefore (events ++ rest) = finishedBefore rest - depth := by
  induction opened generalizing rest with
  | none complete => rw [complete.finishedBefore_append, Nat.sub_zero]
  | inside around kind complete ih =>
      rw [List.append_assoc, ih, List.cons_append, finishedBefore,
        complete.finishedBefore_append, Nat.sub_sub, Nat.add_comm 1]

theorem finishedBefore_eq_zero (opened : LeavesOpen depth events) : finishedBefore events = 0 := by
  have counted := opened.finishedBefore_append []
  rw [List.append_nil, finishedBefore, Nat.zero_sub] at counted
  exact counted

theorem eachClosed_iff (opened : LeavesOpen depth events) : EachClosed events ↔ depth = 0 := by
  cases opened with
  | none complete => exact iff_of_true complete.eachClosed rfl
  | @inside depth outer inner around kind complete =>
      refine iff_of_false ?_ (Nat.succ_ne_zero depth)
      intro closed
      -- What stands behind the last open start is balanced, and would finish it as well.
      obtain ⟨after, front, balanced, split⟩ := closed outer kind inner rfl
      have counted := (LeavesOpen.none complete).finishedBefore_eq_zero
      rw [split, balanced.finishedBefore_append, finishedBefore] at counted
      exact Nat.succ_ne_zero _ counted

end LeavesOpen

/-! ### Replaying -/

/-- A run finds no open node at a finish only if more nodes are finished than are open. -/
theorem Scaffold.lt_finishedBefore_of_run {text : String} {events : List Event}
    {scaffold : Scaffold}
    (fails : events.foldlM (apply text) scaffold = .error .finishWithoutStart) :
    scaffold.openNodes.length < finishedBefore events := by
  induction events generalizing scaffold with
  | nil => cases fails
  | cons event rest ih =>
      cases event with
      | start kind =>
          have later := @ih { scaffold with openNodes := ⟨kind, []⟩ :: scaffold.openNodes } fails
          rw [List.length_cons] at later
          exact Nat.lt_sub_of_add_lt later
      | token kind span =>
          rw [List.foldlM_cons, apply] at fails
          cases cut : Text.slice text span with
          | none =>
              rw [cut] at fails
              cases fails
          | some piece =>
              rw [cut] at fails
              have later := ih fails
              rw [length_openNodes_add] at later
              exact later
      | finish =>
          obtain ⟨outside, openNodes⟩ := scaffold
          cases openNodes with
          | nil => exact Nat.succ_pos _
          | cons inner outer =>
              have later := @ih (add ⟨outside, outer⟩ (.node inner.kind inner.children)) fails
              rw [length_openNodes_add] at later
              exact Nat.succ_lt_succ later

theorem Tree.ofEvents_ne_finishWithoutStart {events : List Event}
    (nested : finishedBefore events = 0) (text : String) :
    Tree.ofEvents text events ≠ .error .finishWithoutStart := by
  unfold Tree.ofEvents
  cases run : events.foldlM (Scaffold.apply text) .empty with
  | error defect =>
      intro same
      rw [Except.error.inj same] at run
      have finished := Scaffold.lt_finishedBefore_of_run run
      rw [nested] at finished
      exact Nat.not_lt_zero _ finished
  | ok result =>
      change result.tree ≠ _
      unfold Scaffold.tree
      split
      · intro impossible
        cases impossible
      · intro impossible
        cases impossible

theorem Tree.exists_of_isNode {text : String} {events : List Event} (complete : IsNode events)
    (inside : TokensInside text events) : ∃ tree, Tree.ofEvents text events = .ok tree := by
  have balanced : Balanced events := by
    obtain ⟨kind, inner, within, rfl⟩ := complete
    exact .node kind within .nil
  have kept := balanced.withoutUnfinished_append []
  rw [List.append_nil, withoutUnfinished, List.append_nil] at kept
  rw [Tree.ofEvents_succeeds_iff, kept]
  exact ⟨inside, (LeavesOpen.none balanced).finishedBefore_eq_zero, complete⟩

/-! ### Recording -/

namespace Recorder

/-- The recorder that has been called with these events, one after the other, from the start. -/
def ofCalls (calls : List Event) : Recorder := empty.recordAll calls

variable {recorder next : Recorder} {event : Event}

theorem record?_eq_none_iff :
    recorder.record? event = none ↔ event = .finish ∧ recorder.depth = 0 := by
  cases event <;> simp [record?]

theorem events_of_record? (taken : recorder.record? event = some next) :
    next.events = recorder.events ++ [event] := by
  cases event with
  | start kind =>
      obtain rfl := Option.some.inj taken
      rfl
  | token kind span =>
      obtain rfl := Option.some.inj taken
      rfl
  | finish =>
      rw [record?] at taken
      split at taken
      · cases taken
      · obtain rfl := Option.some.inj taken
        rfl

/-- The depth is the number of nodes that are open behind the events. -/
def WellNested (recorder : Recorder) : Prop := LeavesOpen recorder.depth recorder.events

theorem WellNested.empty : WellNested empty := .none .nil

/-- One more event that is taken keeps the events well nested. -/
theorem WellNested.step (nested : recorder.WellNested)
    (taken : recorder.record? event = some next) : next.WellNested := by
  obtain ⟨events, depth⟩ := recorder
  cases event with
  | start kind =>
      obtain rfl := Option.some.inj taken
      exact LeavesOpen.start nested kind
  | token kind span =>
      obtain rfl := Option.some.inj taken
      exact LeavesOpen.token nested kind span
  | finish =>
      cases depth with
      | zero => cases taken
      | succ depth =>
          obtain rfl := Option.some.inj taken
          exact LeavesOpen.finish nested

theorem WellNested.recordAll (nested : recorder.WellNested) (calls : List Event) :
    (recorder.recordAll calls).WellNested := by
  induction calls generalizing recorder with
  | nil => exact nested
  | cons call rest ih =>
      change ((recorder.record? call).getD recorder |>.recordAll rest).WellNested
      cases taken : recorder.record? call with
      | none => exact ih nested
      | some next => exact ih (nested.step taken)

theorem WellNested.ofCalls (calls : List Event) : (ofCalls calls).WellNested :=
  WellNested.empty.recordAll calls

/-- A call adds its event at the end, unless it is refused. -/
theorem events_ofCalls_concat (calls : List Event) (event : Event) :
    (ofCalls (calls ++ [event])).events = (ofCalls calls).events ++
      if ((ofCalls calls).record? event).isSome then [event] else [] := by
  have last : ofCalls (calls ++ [event]) =
      ((ofCalls calls).record? event).getD (ofCalls calls) := by
    unfold ofCalls recordAll
    rw [List.foldl_append]
    rfl
  rw [last]
  cases taken : (ofCalls calls).record? event with
  | none => exact (List.append_nil _).symm
  | some next => exact events_of_record? taken

/-- A recorder holds well-nested events after any calls. No front of them finishes more nodes than
it starts, and only a finish is refused, exactly if every node that started is closed; any other
call adds its event. So a replay over any text finds an open node at every finish. If the tokens
cover whole characters and the events start a node that is closed by the last of them, the replay
gives a tree. -/
theorem recorded_well_nested (calls : List Event) :
    (∀ front, front <+: (ofCalls calls).events →
      front.countP Event.isFinish ≤ front.countP Event.isStart) ∧
    (∀ event, (ofCalls calls).record? event = none ↔
      event = .finish ∧ EachClosed (ofCalls calls).events) ∧
    (∀ event, (ofCalls (calls ++ [event])).events = (ofCalls calls).events ++
      if ((ofCalls calls).record? event).isSome then [event] else []) ∧
    (∀ text, Tree.ofEvents text (ofCalls calls).events ≠ .error .finishWithoutStart) ∧
    ∀ text kind rest, (ofCalls calls).events = .start kind :: rest → Closes [] rest →
      TokensInside text (ofCalls calls).events →
        ∃ tree, Tree.ofEvents text (ofCalls calls).events = .ok tree := by
  have nested : LeavesOpen (ofCalls calls).depth (ofCalls calls).events :=
    WellNested.ofCalls calls
  refine ⟨(finishedBefore_eq_zero_iff _).mp nested.finishedBefore_eq_zero, ?_,
    events_ofCalls_concat calls, Tree.ofEvents_ne_finishWithoutStart nested.finishedBefore_eq_zero,
    ?_⟩
  · intro event
    rw [record?_eq_none_iff, nested.eachClosed_iff]
  · rintro text kind rest starts ⟨inner, balanced, closes⟩ inside
    have complete : IsNode (ofCalls calls).events :=
      ⟨kind, inner, balanced, by rw [starts, closes, List.cons_append]⟩
    exact Tree.exists_of_isNode complete inside

/-- The calls for an import with a chain, with a finish too many in front and behind. -/
def sampleRecorded : List Event :=
  [.finish, .start .importDeclaration, .start .accessChain, .token .identifier ⟨0, 5⟩, .finish,
    .finish, .finish]

theorem recorded_well_nested_sample :
    (ofCalls sampleRecorded).record? .finish = none ∧
      ∃ tree, Tree.ofEvents "été" (ofCalls sampleRecorded).events = .ok tree := by
  obtain ⟨_fronts, refused, _taken, _replayed, builds⟩ := recorded_well_nested sampleRecorded
  have chain : Balanced [.start .accessChain, .token .identifier ⟨0, 5⟩, .finish] :=
    .node .accessChain (.token .identifier ⟨0, 5⟩ .nil) .nil
  have whole : Balanced (ofCalls sampleRecorded).events :=
    .node .importDeclaration chain .nil
  have inside : TokensInside "été" (ofCalls sampleRecorded).events :=
    tokensInside_start.mpr (tokensInside_start.mpr (tokensInside_token.mpr
      ⟨Text.isSome_slice_iff.mp rfl, tokensInside_finish.mpr (tokensInside_finish.mpr
        tokensInside_nil)⟩))
  refine ⟨(refused .finish).mpr ⟨rfl, whole.eachClosed⟩, ?_⟩
  exact builds "été" .importDeclaration _ rfl ⟨_, chain, rfl⟩ inside

end Recorder

end Bindery.Syntax
