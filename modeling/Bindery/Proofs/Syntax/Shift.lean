import Bindery.Proofs.Syntax.Trivia

set_option autoImplicit false

/-! Neighbours that start further to the right. They have the same tokens and nodes, each of them as
much further to the right. -/

namespace Bindery.Syntax

def Token.shift (distance : Nat) (token : Token) : Token :=
  { token with start := token.start + distance }

def Node.shift (distance : Nat) (node : Node) : Node :=
  { node with start := node.start + distance }

theorem tokensFrom_shift (distance start : Nat) (forest : Forest) :
    Forest.tokensFrom (start + distance) forest =
      (Forest.tokensFrom start forest).map (Token.shift distance) := by
  induction forest generalizing start with
  | nil => rfl
  | cons tree rest ih =>
      cases tree with
      | token kind text =>
          rw [Forest.tokensFrom, Forest.tokensFrom, Nat.add_right_comm, ih, List.map_cons]
          rfl
      | node kind children =>
          rw [Forest.tokensFrom, Forest.tokensFrom, Nat.add_right_comm, ih]

theorem nodesFrom_shift (distance : Nat) (parent : Kind) (start : Nat) (forest : Forest) :
    Forest.nodesFrom parent (start + distance) forest =
      (Forest.nodesFrom parent start forest).map (Node.shift distance) := by
  induction forest generalizing start with
  | nil => rfl
  | cons tree rest ih =>
      cases tree with
      | token kind text =>
          rw [Forest.nodesFrom, Forest.nodesFrom, Nat.add_right_comm, ih]
      | node kind children =>
          rw [Forest.nodesFrom, Forest.nodesFrom, Nat.add_right_comm, ih, List.map_cons]
          rfl

mutual

theorem Tree.significantStart?_shift (distance start : Nat) : (tree : Tree) →
    tree.significantStart? (start + distance) =
      (tree.significantStart? start).map (· + distance)
  | .token kind text => by
      rw [Tree.significantStart?, Tree.significantStart?]
      split <;> rfl
  | .node kind children => Forest.significantStart?_shift distance start children

theorem Forest.significantStart?_shift (distance start : Nat) : (forest : Forest) →
    Forest.significantStart? (start + distance) forest =
      (Forest.significantStart? start forest).map (· + distance)
  | [] => rfl
  | tree :: rest => by
      rw [Forest.significantStart?, Forest.significantStart?,
        Tree.significantStart?_shift distance start tree, Nat.add_right_comm,
        Forest.significantStart?_shift distance _ rest]
      cases tree.significantStart? start <;> rfl

end

mutual

theorem Tree.postorderFrom_shift (distance start : Nat) (parent : Option Kind) : (tree : Tree) →
    tree.postorderFrom (start + distance) parent =
      (tree.postorderFrom start parent).map (Node.shift distance)
  | .token .. => rfl
  | .node kind children => by
      rw [Tree.postorderFrom, Tree.postorderFrom, List.map_append,
        Forest.postorderFrom_shift distance start (some kind) children]
      rfl

theorem Forest.postorderFrom_shift (distance start : Nat) (parent : Option Kind) :
    (forest : Forest) →
      Forest.postorderFrom (start + distance) parent forest =
        (Forest.postorderFrom start parent forest).map (Node.shift distance)
  | [] => rfl
  | tree :: rest => by
      rw [Forest.postorderFrom, Forest.postorderFrom, List.map_append,
        Tree.postorderFrom_shift distance start parent tree, Nat.add_right_comm,
        Forest.postorderFrom_shift distance _ parent rest]

end

namespace Node

theorem outline_shift (distance : Nat) (node : Node) :
    (node.shift distance).outline = node.outline := rfl

theorem span_shift (distance : Nat) (node : Node) :
    (node.shift distance).span = node.span.shift distance := by
  have start : ((Forest.significantStart? node.start node.children).map (· + distance)).getD
      (node.start + distance) =
        (Forest.significantStart? node.start node.children).getD node.start + distance := by
    cases Forest.significantStart? node.start node.children <;> rfl
  unfold span stop shift
  rw [Forest.significantStart?_shift, start, Nat.add_right_comm]
  rfl

theorem token?_shift (distance : Nat) (node : Node) (kind : Kind) :
    (node.shift distance).token? kind = (node.token? kind).map (Token.shift distance) := by
  unfold token? tokensOf tokens shift
  rw [tokensFrom_shift, List.filter_map, List.head?_map]
  rfl

theorem spelling_shift (distance : Nat) (token : Token) :
    (token.shift distance).spelling = token.spelling.shift distance := by
  unfold Token.shift Token.spelling Token.span Spanned.shift Span.shift
  rw [Nat.add_right_comm]

theorem identifiers_shift (distance : Nat) (node : Node) :
    (node.shift distance).identifiers = node.identifiers.map (Spanned.shift distance) := by
  unfold identifiers tokensOf tokens shift
  rw [tokensFrom_shift, List.filter_map, List.map_map, List.map_map]
  apply List.map_congr_left
  intro token _member
  exact spelling_shift distance token

theorem identifier?_shift (distance : Nat) (node : Node) :
    (node.shift distance).identifier? = node.identifier?.map (Spanned.shift distance) := by
  rw [identifier?, identifiers_shift, List.head?_map]
  rfl

theorem child?_shift (distance : Nat) (node : Node) (kind : Kind) :
    (node.shift distance).child? kind = (node.child? kind).map (Node.shift distance) := by
  unfold child? nodes shift
  rw [nodesFrom_shift, List.find?_map]
  rfl

end Node

end Bindery.Syntax
