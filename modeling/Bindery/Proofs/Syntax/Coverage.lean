import Bindery.Proofs.Syntax.Placement
import Bindery.Proofs.Syntax.RoundTrip
import Bindery.Syntax.Node
import Bindery.Syntax.Recorder

set_option autoImplicit false

/-! What the events of a tree say about its text. The tokens of a tree, in the order of the text,
follow one another without a gap, and the events cover them at the places that they have in the
tree. A recorder takes balanced events without a refusal, and then no node is open any more. -/

namespace Bindery

/-- Spans that lie end to end from `start` to `stop`: none leaves a gap or reaches into the next. -/
def Span.EndToEnd : Nat → Nat → List Span → Prop
  | start, stop, [] => start = stop
  | start, stop, span :: rest =>
      span.start = start ∧ span.start ≤ span.stop ∧ Span.EndToEnd span.stop stop rest

theorem Span.EndToEnd.append {start middle stop : Nat} {left right : List Span}
    (first : Span.EndToEnd start middle left) (second : Span.EndToEnd middle stop right) :
    Span.EndToEnd start stop (left ++ right) := by
  induction left generalizing start with
  | nil =>
      obtain rfl := first
      exact second
  | cons span rest ih => exact ⟨first.1, first.2.1, ih first.2.2⟩

theorem Span.EndToEnd.of_append {start stop : Nat} {left right : List Span}
    (ends : Span.EndToEnd start stop (left ++ right)) :
    ∃ middle, Span.EndToEnd start middle left ∧ Span.EndToEnd middle stop right := by
  induction left generalizing start with
  | nil => exact ⟨start, rfl, ends⟩
  | cons span rest ih =>
      obtain ⟨begins, ordered, behind⟩ := ends
      obtain ⟨middle, first, second⟩ := ih behind
      exact ⟨middle, ⟨begins, ordered, first⟩, second⟩

namespace Syntax

/-- The kind and the place of the token that an event adds. -/
def Event.token? : Event → Option (Kind × Span)
  | .token kind span => some (kind, span)
  | .start _ | .finish => none

def Token.placed (token : Token) : Kind × Span := (token.kind, token.span)

def Element.token? (element : Element) : Option Token :=
  match element.tree with
  | .token kind text => some ⟨kind, text, element.start⟩
  | .node _ _ => none

/-- Every token of a tree, at whatever depth, in the order of the text. -/
def Tree.tokens (tree : Tree) : List Token := tree.preorder.filterMap Element.token?

/-! ### Tokens in a tree and in its events -/

mutual

theorem Tree.tokens_eventsFrom (depth start : Nat) (parent : Option Kind) : (tree : Tree) →
    (tree.eventsFrom start).filterMap Event.token? =
      ((tree.preorderFrom depth start parent).filterMap Element.token?).map Token.placed
  | .token kind text => rfl
  | .node kind children => by
      have inside := Forest.tokens_eventsFrom (depth + 1) start (some kind) children
      rw [Tree.eventsFrom, Tree.preorderFrom, List.filterMap_append, List.filterMap_cons_none rfl,
        List.filterMap_cons_none rfl, inside]
      exact List.append_nil _

theorem Forest.tokens_eventsFrom (depth start : Nat) (parent : Option Kind) :
    (forest : Forest) →
      (Forest.eventsFrom start forest).filterMap Event.token? =
        ((Forest.preorderFrom depth start parent forest).filterMap Element.token?).map Token.placed
  | [] => rfl
  | tree :: rest => by
      rw [Forest.eventsFrom, Forest.preorderFrom, List.filterMap_append, List.filterMap_append,
        List.map_append, Tree.tokens_eventsFrom depth start parent tree,
        Forest.tokens_eventsFrom depth _ parent rest]

end

mutual

theorem Tree.endToEnd_tokens (depth start : Nat) (parent : Option Kind) : (tree : Tree) →
    Span.EndToEnd start (start + tree.byteSize)
      (((tree.preorderFrom depth start parent).filterMap Element.token?).map Token.span)
  | .token kind text => ⟨rfl, Nat.le_add_right _ _, rfl⟩
  | .node kind children => by
      rw [Tree.preorderFrom, List.filterMap_cons_none rfl, Tree.byteSize]
      exact Forest.endToEnd_tokens (depth + 1) start (some kind) children

theorem Forest.endToEnd_tokens (depth start : Nat) (parent : Option Kind) :
    (forest : Forest) →
      Span.EndToEnd start (start + Forest.byteSize forest)
        (((Forest.preorderFrom depth start parent forest).filterMap Element.token?).map Token.span)
  | [] => rfl
  | tree :: rest => by
      rw [Forest.preorderFrom, List.filterMap_append, List.map_append, Forest.byteSize,
        ← Nat.add_assoc]
      exact (Tree.endToEnd_tokens depth start parent tree).append
        (Forest.endToEnd_tokens depth _ parent rest)

end

mutual

theorem Tree.stands_tokens {text : String} (depth : Nat) {start : Nat} (parent : Option Kind) :
    (tree : Tree) → Text.StandsAt text tree.text start →
      ∀ token ∈ (tree.preorderFrom depth start parent).filterMap Element.token?,
        Text.StandsAt text token.text token.start
  | .token kind own, stands, token, member => by
      rw [List.mem_singleton.mp member]
      exact stands
  | .node kind children, stands, token, member => by
      rw [Tree.preorderFrom, List.filterMap_cons_none rfl] at member
      exact Forest.stands_tokens (depth + 1) (some kind) children stands token member

theorem Forest.stands_tokens {text : String} (depth : Nat) {start : Nat} (parent : Option Kind) :
    (forest : Forest) → Text.StandsAt text (Forest.text forest) start →
      ∀ token ∈ (Forest.preorderFrom depth start parent forest).filterMap Element.token?,
        Text.StandsAt text token.text token.start
  | [], _, token, member => by cases member
  | tree :: rest, stands, token, member => by
      rw [Forest.preorderFrom, List.filterMap_append] at member
      rcases List.mem_append.mp member with first | later
      · exact Tree.stands_tokens depth parent tree (stands_first stands) token first
      · exact Forest.stands_tokens depth parent rest (stands_rest stands) token later

end

/-! ### Recording -/

/-- A recorder takes balanced events one after the other, and as many nodes are open as before. -/
theorem Balanced.recorded {events : List Event} (balanced : Balanced events)
    (recorder : Recorder) :
    events.foldlM Recorder.record? recorder =
      some ⟨recorder.events ++ events, recorder.depth⟩ := by
  induction balanced generalizing recorder with
  | nil =>
      rw [List.append_nil]
      rfl
  | @token kind span rest _after ih =>
      rw [List.foldlM_cons]
      change rest.foldlM Recorder.record?
        ⟨recorder.events ++ [.token kind span], recorder.depth⟩ = _
      rw [ih, List.append_assoc]
      rfl
  | @node kind inner rest _inside _after ihInside ihAfter =>
      rw [List.cons_append, List.foldlM_cons]
      change (inner ++ .finish :: rest).foldlM Recorder.record?
        ⟨recorder.events ++ [.start kind], recorder.depth + 1⟩ = _
      rw [List.foldlM_append, ihInside]
      change rest.foldlM Recorder.record?
        ⟨recorder.events ++ [.start kind] ++ inner ++ [.finish], recorder.depth⟩ = _
      rw [ihAfter]
      simp

end Syntax

end Bindery
