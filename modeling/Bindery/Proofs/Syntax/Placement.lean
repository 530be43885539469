import Bindery.Proofs.Text.Placement
import Bindery.Syntax.Node

set_option autoImplicit false

/-! Where the tokens and nodes of a tree stand in its text. Offsets are added up from the sizes of
the tokens before them, so each token has its text at its offset, and the span of a node, cut down
to the first token that carries meaning, still covers whole characters. -/

namespace Bindery.Syntax

open Text

/-! ### The first token that carries meaning -/

mutual

theorem Tree.significantStart?_splits (start found : Nat) : (tree : Tree) →
    tree.significantStart? start = some found →
      ∃ front back, tree.text = front ++ back ∧ found = start + front.utf8ByteSize
  | .token kind text, begins => by
      rw [Tree.significantStart?] at begins
      split at begins
      · cases begins
      · exact ⟨"", text, String.empty_append.symm, (Option.some.inj begins).symm⟩
  | .node kind children, begins => Forest.significantStart?_splits start found children begins

theorem Forest.significantStart?_splits (start found : Nat) : (forest : Forest) →
    Forest.significantStart? start forest = some found →
      ∃ front back, Forest.text forest = front ++ back ∧ found = start + front.utf8ByteSize
  | [], begins => by cases begins
  | tree :: rest, begins => by
      rw [Forest.significantStart?] at begins
      rw [Forest.text]
      cases first : tree.significantStart? start with
      | some place =>
          rw [first] at begins
          obtain ⟨front, back, split, placed⟩ := tree.significantStart?_splits start place first
          refine ⟨front, back ++ Forest.text rest, ?_, ?_⟩
          · rw [split, String.append_assoc]
          · rw [← Option.some.inj begins, placed]
      | none =>
          rw [first] at begins
          obtain ⟨front, back, split, placed⟩ :=
            Forest.significantStart?_splits (start + tree.byteSize) found rest begins
          refine ⟨tree.text ++ front, back, ?_, ?_⟩
          · rw [split, String.append_assoc]
          · rw [placed, String.utf8ByteSize_append, tree.utf8ByteSize_text, Nat.add_assoc]

end

theorem significantStart?_append {front : Forest} {start found : Nat} (rest : Forest)
    (begins : Forest.significantStart? start front = some found) :
    Forest.significantStart? start (front ++ rest) = some found := by
  induction front generalizing start with
  | nil => cases begins
  | cons tree others ih =>
      rw [Forest.significantStart?] at begins
      rw [List.cons_append, Forest.significantStart?]
      cases own : tree.significantStart? start with
      | some place =>
          rw [own] at begins
          exact begins
      | none =>
          rw [own] at begins
          exact ih begins

/-! ### Elements among neighbours -/

section Neighbours

variable {text : String} {start : Nat} {tree : Tree} {rest : Forest}

theorem stands_first (stands : StandsAt text (Forest.text (tree :: rest)) start) :
    StandsAt text tree.text start := by
  rw [Forest.text] at stands
  exact stands.left

theorem stands_rest (stands : StandsAt text (Forest.text (tree :: rest)) start) :
    StandsAt text (Forest.text rest) (start + tree.byteSize) := by
  rw [Forest.text] at stands
  rw [← tree.utf8ByteSize_text]
  exact stands.right

end Neighbours

theorem stands_token {text : String} {start : Nat} {forest : Forest} {token : Token}
    (stands : StandsAt text (Forest.text forest) start)
    (member : token ∈ Forest.tokensFrom start forest) :
    StandsAt text token.text token.start := by
  induction forest generalizing start with
  | nil => cases member
  | cons tree rest ih =>
      cases tree with
      | token kind own =>
          rcases List.mem_cons.mp member with rfl | later
          · exact stands_first stands
          · exact ih (stands_rest stands) later
      | node kind children => exact ih (stands_rest stands) member

def Node.StandsIn (text : String) (node : Node) : Prop := StandsAt text node.text node.start

theorem stands_child {text : String} {parent : Kind} {start : Nat} {forest : Forest}
    {child : Node} (stands : StandsAt text (Forest.text forest) start)
    (member : child ∈ Forest.nodesFrom parent start forest) : child.StandsIn text := by
  induction forest generalizing start with
  | nil => cases member
  | cons tree rest ih =>
      cases tree with
      | token kind own => exact ih (stands_rest stands) member
      | node kind children =>
          rcases List.mem_cons.mp member with rfl | later
          · exact stands_first stands
          · exact ih (stands_rest stands) later

/-! ### Nodes of a tree -/

mutual

theorem Tree.stands_postorderFrom {text : String} {start : Nat} (parent : Option Kind) :
    (tree : Tree) → StandsAt text tree.text start →
      ∀ node ∈ tree.postorderFrom start parent, node.StandsIn text
  | .token .., _, node, member => by cases member
  | .node kind children, stands, node, member => by
      rcases List.mem_append.mp member with inner | itself
      · exact Forest.stands_postorderFrom (some kind) children stands node inner
      · rw [List.mem_singleton.mp itself]
        exact stands

theorem Forest.stands_postorderFrom {text : String} {start : Nat} (parent : Option Kind) :
    (forest : Forest) → StandsAt text (Forest.text forest) start →
      ∀ node ∈ Forest.postorderFrom start parent forest, node.StandsIn text
  | [], _, node, member => by cases member
  | tree :: rest, stands, node, member => by
      rcases List.mem_append.mp member with first | later
      · exact tree.stands_postorderFrom parent (stands_first stands) node first
      · exact Forest.stands_postorderFrom parent rest (stands_rest stands) node later

end

theorem Tree.stands_postorder (tree : Tree) :
    ∀ node ∈ tree.postorder, node.StandsIn tree.text :=
  tree.stands_postorderFrom none (.whole tree.text)

namespace Node.StandsIn

variable {text : String} {node : Node}

theorem span_inside (stands : node.StandsIn text) : node.span.Inside text := by
  unfold Node.span Node.stop
  rw [← Forest.utf8ByteSize_text]
  cases first : Forest.significantStart? node.start node.children with
  | none => exact StandsAt.inside stands
  | some found =>
      obtain ⟨front, back, split, placed⟩ :=
        Forest.significantStart?_splits node.start found node.children first
      have inner : StandsAt text (front ++ back) node.start := split ▸ stands
      rw [Option.getD_some, placed, split, String.utf8ByteSize_append, ← Nat.add_assoc]
      exact inner.right.inside

theorem identifier (stands : node.StandsIn text) {name : Spanned String}
    (member : name ∈ node.identifiers) :
    name.span.Inside text ∧ Text.slice text name.span = some name.value := by
  obtain ⟨token, present, rfl⟩ := List.mem_map.mp member
  have token_stands := stands_token stands (List.mem_filter.mp present).1
  exact ⟨token_stands.inside, token_stands.slice⟩

theorem child (stands : node.StandsIn text) {kind : Kind} {inner : Node}
    (found : node.child? kind = some inner) : inner.StandsIn text :=
  stands_child stands (List.mem_of_find?_eq_some found)

end Node.StandsIn

end Bindery.Syntax
