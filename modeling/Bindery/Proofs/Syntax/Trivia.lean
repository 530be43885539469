import Bindery.Syntax.Node

set_option autoImplicit false

/-! Trees without blanks and comments. What is asked of a node, its places apart, is answered by
what is left of it when every blank and every comment is taken out. -/

namespace Bindery.Syntax

/-! ### Taking trivia out -/

def Tree.isTrivia : Tree → Bool
  | .token kind _ => kind.isTrivia
  | .node .. => false

mutual

/-- The tree without the blanks and comments below its root. -/
def Tree.withoutTrivia : Tree → Tree
  | .token kind text => .token kind text
  | .node kind children => .node kind (Forest.withoutTrivia children)

def Forest.withoutTrivia : Forest → Forest
  | [] => []
  | tree :: rest =>
      if tree.isTrivia then Forest.withoutTrivia rest
      else tree.withoutTrivia :: Forest.withoutTrivia rest

end

theorem withoutTrivia_append (left right : Forest) :
    Forest.withoutTrivia (left ++ right) =
      Forest.withoutTrivia left ++ Forest.withoutTrivia right := by
  induction left with
  | nil => rfl
  | cons tree rest ih =>
      rw [List.cons_append, Forest.withoutTrivia, Forest.withoutTrivia, ih]
      by_cases trivia : tree.isTrivia = true
      · rw [if_pos trivia, if_pos trivia]
      · rw [if_neg trivia, if_neg trivia, List.cons_append]

/-- A blank or a comment may stand between any two neighbours. -/
theorem withoutTrivia_inserted (left right : Forest) (kind : Kind) (text : String)
    (trivia : kind.isTrivia = true) :
    Forest.withoutTrivia (left ++ .token kind text :: right) =
      Forest.withoutTrivia (left ++ right) := by
  have dropped : Forest.withoutTrivia (.token kind text :: right) =
      Forest.withoutTrivia right := by
    rw [Forest.withoutTrivia, Tree.isTrivia, if_pos trivia]
  rw [withoutTrivia_append, withoutTrivia_append, dropped]

/-! ### Texts -/

mutual

theorem Tree.significantText_eq : (tree : Tree) → tree.isTrivia = false →
    tree.significantText = tree.withoutTrivia.text
  | .token kind text, significant => by
      rw [Tree.isTrivia] at significant
      rw [Tree.significantText, if_neg (Bool.eq_false_iff.mp significant)]
      rfl
  | .node kind children, _ => Forest.significantText_eq children

theorem Forest.significantText_eq : (forest : Forest) →
    Forest.significantText forest = Forest.text (Forest.withoutTrivia forest)
  | [] => rfl
  | tree :: rest => by
      rw [Forest.significantText, Forest.withoutTrivia, Forest.significantText_eq rest]
      cases trivia : tree.isTrivia with
      | false => rw [Tree.significantText_eq tree trivia]; rfl
      | true =>
          have silent : tree.significantText = "" := by
            cases tree with
            | token kind text => exact if_pos trivia
            | node kind children => cases trivia
          rw [silent, String.empty_append]
          rfl

end

/-! ### Nodes without their trivia and their place -/

/-- The kind of a node and what stands in it, its blanks and comments left out. -/
def Node.outline (node : Node) : Tree := .node node.kind (Forest.withoutTrivia node.children)

theorem Node.kind_eq_of_outline {node other : Node} (same : node.outline = other.outline) :
    node.kind = other.kind :=
  congrArg Tree.kind same

theorem Node.significantText_outline (node : Node) :
    node.significantText = node.outline.text :=
  Forest.significantText_eq node.children

def Tree.children : Tree → Forest
  | .token .. => []
  | .node _ children => children

/-- The texts of the tokens of a kind directly under a node. -/
def Tree.textsOf (kind : Kind) (tree : Tree) : List String :=
  tree.children.filterMap fun
    | .token other text => if other = kind then some text else none
    | .node .. => none

/-- A kind that is no trivia is found among the other tokens, wherever these start. -/
theorem texts_tokensFrom (kind : Kind) (significant : kind.isTrivia = false) (parent : Kind)
    (start : Nat) (forest : Forest) :
    ((Forest.tokensFrom start forest).filter fun token => token.kind = kind).map Token.text =
      Tree.textsOf kind (.node parent (Forest.withoutTrivia forest)) := by
  induction forest generalizing start with
  | nil => rfl
  | cons tree rest ih =>
      cases tree with
      | node inner children => exact ih _
      | token other text =>
          rw [Forest.tokensFrom, Forest.withoutTrivia]
          by_cases trivia : other.isTrivia = true
          · have differs : other ≠ kind := by
              intro same
              rw [same, significant] at trivia
              cases trivia
            rw [Tree.isTrivia, if_pos trivia, List.filter_cons_of_neg (by simpa using differs)]
            exact ih _
          · rw [Tree.isTrivia, if_neg trivia]
            by_cases same : other = kind
            · rw [List.filter_cons_of_pos (by simpa using same), List.map_cons, ih]
              simp [Tree.textsOf, Tree.children, Tree.withoutTrivia, same]
            · rw [List.filter_cons_of_neg (by simpa using same), ih]
              simp [Tree.textsOf, Tree.children, Tree.withoutTrivia, same]

theorem Node.texts_tokensOf (node : Node) (kind : Kind) (significant : kind.isTrivia = false) :
    (node.tokensOf kind).map Token.text = node.outline.textsOf kind :=
  texts_tokensFrom kind significant node.kind node.start node.children

theorem Node.text_token? (node : Node) (kind : Kind) (significant : kind.isTrivia = false) :
    (node.token? kind).map Token.text = (node.outline.textsOf kind).head? := by
  rw [Node.token?, ← List.head?_map, node.texts_tokensOf kind significant]

def Tree.isNode : Tree → Bool
  | .token .. => false
  | .node .. => true

theorem outlines_nodesFrom (parent kind : Kind) (start : Nat) (forest : Forest) :
    (Forest.nodesFrom parent start forest).map Node.outline =
      (Tree.children (.node kind (Forest.withoutTrivia forest))).filter Tree.isNode := by
  induction forest generalizing start with
  | nil => rfl
  | cons tree rest ih =>
      cases tree with
      | node inner children => exact congrArg (Tree.node inner _ :: ·) (ih _)
      | token other text =>
          rw [Forest.nodesFrom, ih, Forest.withoutTrivia]
          by_cases trivia : other.isTrivia = true
          · rw [Tree.isTrivia, if_pos trivia]
          · rw [Tree.isTrivia, if_neg trivia]
            rfl

theorem Node.outlines_nodes (node : Node) :
    node.nodes.map Node.outline = node.outline.children.filter Tree.isNode :=
  outlines_nodesFrom node.kind node.kind node.start node.children

/-! ### Nodes in the order of reading -/

mutual

/-- Every node as a tree, each after the nodes below it. -/
def Tree.inPostorder : Tree → List Tree
  | .token .. => []
  | .node kind children => Forest.inPostorder children ++ [.node kind children]

def Forest.inPostorder : Forest → List Tree
  | [] => []
  | tree :: rest => tree.inPostorder ++ Forest.inPostorder rest

end

mutual

theorem Tree.outlines_postorderFrom (start : Nat) (parent : Option Kind) : (tree : Tree) →
    (tree.postorderFrom start parent).map Node.outline = tree.withoutTrivia.inPostorder
  | .token .. => rfl
  | .node kind children => by
      rw [Tree.postorderFrom, List.map_append, Forest.outlines_postorderFrom start (some kind)
        children]
      rfl

theorem Forest.outlines_postorderFrom (start : Nat) (parent : Option Kind) :
    (forest : Forest) →
      (Forest.postorderFrom start parent forest).map Node.outline =
        Forest.inPostorder (Forest.withoutTrivia forest)
  | [] => rfl
  | tree :: rest => by
      rw [Forest.postorderFrom, List.map_append, Tree.outlines_postorderFrom start parent tree,
        Forest.outlines_postorderFrom _ parent rest, Forest.withoutTrivia]
      cases tree with
      | node kind children => rfl
      | token kind text =>
          by_cases trivia : kind.isTrivia = true
          · rw [Tree.isTrivia, if_pos trivia]
            rfl
          · rw [Tree.isTrivia, if_neg trivia]
            rfl

end

/-- Reading meets the same nodes in trees that differ in blanks and comments only. -/
theorem Tree.outlines_postorder (tree : Tree) :
    tree.postorder.map Node.outline = tree.withoutTrivia.inPostorder :=
  tree.outlines_postorderFrom 0 none

end Bindery.Syntax
