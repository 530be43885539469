import Bindery.Proofs.Syntax.Coverage

set_option autoImplicit false

/-! The tokens below a node, read as one list. The search for the first token that carries meaning
goes down into nodes and comes back up, but what it finds is the first such token of that list, and
what the span of a node leaves out are the blanks and comments at the front of it. -/

namespace Bindery.Syntax

/-! ### Lists of tokens -/

namespace Token

def isSignificant (token : Token) : Bool := !token.kind.isTrivia

/-- The texts of tokens, one behind the other. -/
def joined (tokens : List Token) : String := String.join (tokens.map Token.text)

theorem joined_nil : joined [] = "" := rfl

theorem joined_cons (token : Token) (rest : List Token) :
    joined (token :: rest) = token.text ++ joined rest := String.join_cons

theorem joined_singleton (token : Token) : joined [token] = token.text := by
  rw [joined_cons, joined_nil, String.append_empty]

theorem joined_append (left right : List Token) :
    joined (left ++ right) = joined left ++ joined right := by
  unfold joined
  rw [List.map_append, String.join_append]

theorem isSignificant_iff {token : Token} :
    token.isSignificant = true ↔ token.kind.isTrivia = false := by
  rw [isSignificant, Bool.not_eq_true']

theorem not_isSignificant_iff {token : Token} :
    ¬ token.isSignificant = true ↔ token.kind.isTrivia = true := by
  rw [isSignificant_iff, Bool.not_eq_false]

theorem find?_isSignificant {front rest : List Token} {first : Token}
    (trivia : ∀ token ∈ front, token.kind.isTrivia = true)
    (significant : first.kind.isTrivia = false) :
    (front ++ first :: rest).find? isSignificant = some first := by
  have silent : front.find? isSignificant = none :=
    List.find?_eq_none.mpr fun token member => not_isSignificant_iff.mpr (trivia token member)
  rw [List.find?_append, silent, List.find?_cons_of_pos (isSignificant_iff.mpr significant)]
  rfl

theorem filter_isSignificant {front rest : List Token}
    (trivia : ∀ token ∈ front, token.kind.isTrivia = true)
    (significant : ∀ token ∈ rest, token.kind.isTrivia = false) :
    (front ++ rest).filter isSignificant = rest := by
  have silent : front.filter isSignificant = [] :=
    List.filter_eq_nil_iff.mpr fun token member =>
      not_isSignificant_iff.mpr (trivia token member)
  have kept : rest.filter isSignificant = rest :=
    List.filter_eq_self.mpr fun token member =>
      isSignificant_iff.mpr (significant token member)
  rw [List.filter_append, silent, kept, List.nil_append]

end Token

/-! ### Every token of a tree -/

mutual

/-- The tokens of a tree that starts at `start`, at whatever depth, in the order of the text. -/
def Tree.leavesFrom (start : Nat) : Tree → List Token
  | .token kind text => [⟨kind, text, start⟩]
  | .node _ children => Forest.leavesFrom start children

def Forest.leavesFrom (start : Nat) : Forest → List Token
  | [] => []
  | tree :: rest => tree.leavesFrom start ++ Forest.leavesFrom (start + tree.byteSize) rest

end

mutual

theorem Tree.tokens_preorderFrom (depth start : Nat) (parent : Option Kind) : (tree : Tree) →
    (tree.preorderFrom depth start parent).filterMap Element.token? = tree.leavesFrom start
  | .token .. => rfl
  | .node kind children => by
      rw [Tree.preorderFrom, List.filterMap_cons_none rfl]
      exact Forest.tokens_preorderFrom (depth + 1) start (some kind) children

/-- The leaves are the tokens among all elements, each taken before its children. -/
theorem Forest.tokens_preorderFrom (depth start : Nat) (parent : Option Kind) :
    (forest : Forest) →
      (Forest.preorderFrom depth start parent forest).filterMap Element.token? =
        Forest.leavesFrom start forest
  | [] => rfl
  | tree :: rest => by
      rw [Forest.preorderFrom, List.filterMap_append, Forest.leavesFrom,
        Tree.tokens_preorderFrom depth start parent tree,
        Forest.tokens_preorderFrom depth _ parent rest]

end

mutual

theorem Tree.text_eq_joined (start : Nat) : (tree : Tree) →
    tree.text = Token.joined (tree.leavesFrom start)
  | .token kind text => (Token.joined_singleton ⟨kind, text, start⟩).symm
  | .node _ children => Forest.text_eq_joined start children

theorem Forest.text_eq_joined (start : Nat) : (forest : Forest) →
    Forest.text forest = Token.joined (Forest.leavesFrom start forest)
  | [] => rfl
  | tree :: rest => by
      rw [Forest.text, Forest.leavesFrom, Token.joined_append, ← tree.text_eq_joined start,
        ← Forest.text_eq_joined (start + tree.byteSize) rest]

end

mutual

theorem Tree.significantText_eq_joined (start : Nat) : (tree : Tree) →
    tree.significantText = Token.joined ((tree.leavesFrom start).filter Token.isSignificant)
  | .token kind text => by
      rw [Tree.significantText, Tree.leavesFrom]
      cases trivia : kind.isTrivia with
      | true =>
          rw [List.filter_cons_of_neg (Token.not_isSignificant_iff.mpr trivia)]
          rfl
      | false =>
          rw [List.filter_cons_of_pos (Token.isSignificant_iff.mpr trivia)]
          exact (Token.joined_singleton ⟨kind, text, start⟩).symm
  | .node _ children => Forest.significantText_eq_joined start children

theorem Forest.significantText_eq_joined (start : Nat) : (forest : Forest) →
    Forest.significantText forest =
      Token.joined ((Forest.leavesFrom start forest).filter Token.isSignificant)
  | [] => rfl
  | tree :: rest => by
      rw [Forest.significantText, Forest.leavesFrom, List.filter_append, Token.joined_append,
        ← tree.significantText_eq_joined start,
        ← Forest.significantText_eq_joined (start + tree.byteSize) rest]

end

mutual

theorem Tree.significantStart?_eq_find? (start : Nat) : (tree : Tree) →
    tree.significantStart? start =
      ((tree.leavesFrom start).find? Token.isSignificant).map Token.start
  | .token kind text => by
      rw [Tree.significantStart?, Tree.leavesFrom, List.find?_singleton, Token.isSignificant]
      cases kind.isTrivia <;> rfl
  | .node _ children => Forest.significantStart?_eq_find? start children

/-- A search that goes down into every node finds what a search in the list of all tokens finds. -/
theorem Forest.significantStart?_eq_find? (start : Nat) : (forest : Forest) →
    Forest.significantStart? start forest =
      ((Forest.leavesFrom start forest).find? Token.isSignificant).map Token.start
  | [] => rfl
  | tree :: rest => by
      rw [Forest.significantStart?, Forest.leavesFrom, List.find?_append, Option.map_or,
        ← tree.significantStart?_eq_find? start,
        ← Forest.significantStart?_eq_find? (start + tree.byteSize) rest]
      cases tree.significantStart? start <;> rfl

end

/-! ### Where tokens start -/

theorem Token.stop_of_endToEnd {start stop : Nat} {tokens : List Token}
    (ends : Span.EndToEnd start stop (tokens.map Token.span)) :
    stop = start + (Token.joined tokens).utf8ByteSize := by
  induction tokens generalizing start with
  | nil => exact ends.symm
  | cons token rest ih =>
      obtain ⟨begins, _ordered, behind⟩ := ends
      have placed : token.start = start := begins
      rw [ih behind, Token.joined_cons, String.utf8ByteSize_append, Token.span, placed,
        Nat.add_assoc]

/-- A token starts behind the texts of all tokens before it. -/
theorem Forest.start_of_leavesFrom {start : Nat} {forest : Forest} {front rest : List Token}
    {token : Token} (split : Forest.leavesFrom start forest = front ++ token :: rest) :
    token.start = start + (Token.joined front).utf8ByteSize := by
  -- All tokens lie end to end, so those in front of it end where it starts.
  have ends := Forest.endToEnd_tokens 0 start none forest
  rw [Forest.tokens_preorderFrom, split, List.map_append] at ends
  obtain ⟨middle, before, behind⟩ := ends.of_append
  rw [← Token.stop_of_endToEnd before]
  exact behind.1

mutual

theorem Tree.leavesFrom_around (depth start : Nat) (parent : Option Kind) : (tree : Tree) →
    ∀ element ∈ tree.preorderFrom depth start parent,
      ∃ before after,
        tree.leavesFrom start = before ++ element.tree.leavesFrom element.start ++ after ∧
        element.start = start + (Token.joined before).utf8ByteSize
  | .token .., element, member => by
      rw [List.mem_singleton.mp member]
      exact ⟨[], [], rfl, rfl⟩
  | .node kind children, element, member => by
      rcases List.mem_cons.mp member with rfl | below
      · exact ⟨[], [], (List.append_nil _).symm, rfl⟩
      · exact Forest.leavesFrom_around (depth + 1) start (some kind) children element below

/-- The leaves of an element stand together among all leaves, and it starts where they do. -/
theorem Forest.leavesFrom_around (depth start : Nat) (parent : Option Kind) :
    (forest : Forest) → ∀ element ∈ Forest.preorderFrom depth start parent forest,
      ∃ before after,
        Forest.leavesFrom start forest =
          before ++ element.tree.leavesFrom element.start ++ after ∧
        element.start = start + (Token.joined before).utf8ByteSize
  | [], element, member => by cases member
  | tree :: rest, element, member => by
      rcases List.mem_append.mp member with first | later
      · obtain ⟨before, after, split, placed⟩ :=
          Tree.leavesFrom_around depth start parent tree element first
        refine ⟨before, after ++ Forest.leavesFrom (start + tree.byteSize) rest, ?_, placed⟩
        rw [Forest.leavesFrom, split, List.append_assoc _ after]
      · obtain ⟨before, after, split, placed⟩ :=
          Forest.leavesFrom_around depth (start + tree.byteSize) parent rest element later
        refine ⟨tree.leavesFrom start ++ before, after, ?_, ?_⟩
        · rw [Forest.leavesFrom, split, ← List.append_assoc, ← List.append_assoc]
        · rw [placed, Token.joined_append, String.utf8ByteSize_append, ← tree.text_eq_joined,
            tree.utf8ByteSize_text, Nat.add_assoc]

end

/-! ### The tokens below a node -/

namespace Node

/-- Everything below a node, each element before its children. -/
def descendants (node : Node) : List Element :=
  Forest.preorderFrom 1 node.start (some node.kind) node.children

/-- Every token below a node, at whatever depth, in the order of the text. -/
def leaves (node : Node) : List Token := node.descendants.filterMap Element.token?

variable {node : Node} {front rest : List Token} {token : Token}

theorem leaves_eq (node : Node) : node.leaves = Forest.leavesFrom node.start node.children :=
  Forest.tokens_preorderFrom 1 node.start (some node.kind) node.children

theorem text_eq_joined (node : Node) : node.text = Token.joined node.leaves := by
  rw [leaves_eq]
  exact Forest.text_eq_joined node.start node.children

theorem significantText_eq_joined (node : Node) :
    node.significantText = Token.joined (node.leaves.filter Token.isSignificant) := by
  rw [leaves_eq]
  exact Forest.significantText_eq_joined node.start node.children

theorem start_of_leaves (split : node.leaves = front ++ token :: rest) :
    token.start = node.start + (Token.joined front).utf8ByteSize :=
  Forest.start_of_leavesFrom (node.leaves_eq.symm.trans split)

theorem stop_eq (node : Node) : node.stop = node.start + node.text.utf8ByteSize := by
  rw [stop, text, Forest.utf8ByteSize_text]

theorem span_start_eq (node : Node) :
    node.span.start =
      ((node.leaves.find? Token.isSignificant).map Token.start).getD node.start := by
  rw [span, leaves_eq, Forest.significantStart?_eq_find?]

/-- The span starts behind the trivia in front of the first significant token. -/
theorem span_start_of_leaves (split : node.leaves = front ++ token :: rest)
    (trivia : ∀ other ∈ front, other.kind.isTrivia = true)
    (significant : token.kind.isTrivia = false) :
    node.span.start = node.start + (Token.joined front).utf8ByteSize := by
  rw [span_start_eq, split, Token.find?_isSignificant trivia significant]
  exact start_of_leaves split

/-- The span leaves out the texts of trivia only, and none if there is nothing else. -/
theorem exists_skipped (node : Node) :
    ∃ skipped others, node.leaves = skipped ++ others ∧
      (∀ token ∈ skipped, token.kind.isTrivia = true) ∧
      node.span.start = node.start + (Token.joined skipped).utf8ByteSize := by
  cases found : node.leaves.find? Token.isSignificant with
  | none =>
      refine ⟨[], node.leaves, rfl, ?_, ?_⟩
      · intro token impossible
        cases impossible
      · rw [span_start_eq, found]
        rfl
  | some first =>
      obtain ⟨significant, front, rest, split, before⟩ := List.find?_eq_some_iff_append.mp found
      have trivia : ∀ token ∈ front, token.kind.isTrivia = true := by
        intro token member
        have skipped := before token member
        rw [Bool.not_eq_true', ← Bool.not_eq_true] at skipped
        exact Token.not_isSignificant_iff.mp skipped
      exact ⟨front, first :: rest, split, trivia,
        span_start_of_leaves split trivia (Token.isSignificant_iff.mp significant)⟩

/-- Wherever the leaves of a node are parted, its text is parted too. -/
theorem StandsIn.slices {text : String} {left right : List Token} (stands : node.StandsIn text)
    (split : node.leaves = left ++ right) :
    Text.slice text ⟨node.start, node.start + (Token.joined left).utf8ByteSize⟩ =
        some (Token.joined left) ∧
      Text.slice text ⟨node.start + (Token.joined left).utf8ByteSize, node.stop⟩ =
        some (Token.joined right) := by
  have parted : Text.StandsAt text (Token.joined left ++ Token.joined right) node.start := by
    rw [← Token.joined_append, ← split, ← text_eq_joined]
    exact stands
  have stop : node.stop = node.start + (Token.joined left).utf8ByteSize +
      (Token.joined right).utf8ByteSize := by
    rw [stop_eq, text_eq_joined, split, Token.joined_append, String.utf8ByteSize_append,
      Nat.add_assoc]
  rw [stop]
  exact ⟨parted.left.slice, parted.right.slice⟩

end Node

/-- The leaves of a node of a tree stand together among the tokens of the tree. -/
theorem Tree.tokens_around {tree : Tree} {node : Node} (member : node ∈ tree.nodes) :
    ∃ before after, tree.tokens = before ++ node.leaves ++ after ∧
      node.start = (Token.joined before).utf8ByteSize := by
  obtain ⟨⟨depth, start, parent, element⟩, present, isNode⟩ := List.mem_filterMap.mp member
  cases element with
  | token kind text => cases isNode
  | node kind children =>
      obtain rfl := Option.some.inj isNode
      obtain ⟨before, after, split, placed⟩ :=
        Tree.leavesFrom_around 0 0 none tree _ present
      refine ⟨before, after, ?_, by rw [placed, Nat.zero_add]⟩
      rw [Node.leaves_eq]
      exact (Tree.tokens_preorderFrom 0 0 none tree).trans split

theorem Node.standsIn_of_mem {tree : Tree} {node : Node} (member : node ∈ tree.nodes) :
    node.StandsIn tree.text := by
  obtain ⟨before, after, split, placed⟩ := Tree.tokens_around member
  refine ⟨Token.joined before, Token.joined after, ?_, placed⟩
  have whole : tree.tokens = tree.leavesFrom 0 := Tree.tokens_preorderFrom 0 0 none tree
  rw [tree.text_eq_joined 0, ← whole, split, Token.joined_append, Token.joined_append,
    ← node.text_eq_joined]

/-- The span of a node leaves out the trivia that it begins with and nothing else. The tokens below
a node, at whatever depth, stand together among the tokens of the tree. The span starts at the first
of them that is significant, or with the node if none is, and stops with the node. What it leaves
out is the text of trivia, and what it covers is the text of all other tokens. The significant text
is that of the significant tokens in the same order, so it is what the span covers if there is
one and no trivia comes after it. -/
theorem span_skips_leading_trivia (tree : Tree) (node : Node) (member : node ∈ tree.nodes) :
    (∃ before after, tree.tokens = before ++ node.leaves ++ after ∧
      node.start = (Token.joined before).utf8ByteSize) ∧
    node.span.stop = node.start + node.text.utf8ByteSize ∧
    node.span.start =
      ((node.leaves.find? Token.isSignificant).map Token.start).getD node.start ∧
    (∃ skipped others, node.leaves = skipped ++ others ∧
      (∀ token ∈ skipped, token.kind.isTrivia = true) ∧
      Text.slice tree.text ⟨node.start, node.span.start⟩ = some (Token.joined skipped) ∧
      Text.slice tree.text node.span = some (Token.joined others)) ∧
    node.significantText = Token.joined (node.leaves.filter Token.isSignificant) ∧
    ∀ front first rest, node.leaves = front ++ first :: rest →
      (∀ token ∈ front, token.kind.isTrivia = true) →
      (∀ token ∈ first :: rest, token.kind.isTrivia = false) →
        Text.slice tree.text node.span = some node.significantText := by
  have stands := Node.standsIn_of_mem member
  have spanEq (start : Nat) (begins : node.span.start = start) :
      node.span = ⟨start, node.stop⟩ := by
    rw [← begins]
    rfl
  refine ⟨Tree.tokens_around member, node.stop_eq, node.span_start_eq, ?_,
    node.significantText_eq_joined, ?_⟩
  · obtain ⟨skipped, others, split, trivia, begins⟩ := node.exists_skipped
    obtain ⟨left, right⟩ := stands.slices split
    refine ⟨skipped, others, split, trivia, ?_, ?_⟩
    · rw [begins]
      exact left
    · rw [spanEq _ begins]
      exact right
  · intro front first rest split trivia significant
    have begins := Node.span_start_of_leaves split trivia
      (significant first List.mem_cons_self)
    rw [spanEq _ begins, node.significantText_eq_joined, split,
      Token.filter_isSignificant trivia significant]
    exact (stands.slices split).2

/-- A chain in which the first significant token is empty and stands behind a blank, a comment and
empty nodes. -/
def sampleChain : Node where
  kind := .accessChain
  children := [.node .visibility [], .token .whitespace " ",
    .node .error [.token .lineComment "--é", .node .error []], .node .error [.token .identifier ""],
    .token .identifier "été", .node .error [.token .colonColon "::"]]
  start := 6
  parent := some .importDeclaration

def sampleImport : Tree :=
  .node .importDeclaration [.token .importWord "import",
    .node .accessChain sampleChain.children, .token .whitespace " "]

theorem span_skips_leading_trivia_sample :
    sampleChain ∈ sampleImport.nodes ∧ sampleChain.span = ⟨11, 18⟩ ∧
      Text.slice sampleImport.text sampleChain.span =
        some sampleChain.significantText ∧ sampleChain.significantText = "été::" := by
  have member : sampleChain ∈ sampleImport.nodes :=
    List.mem_cons_of_mem _ List.mem_cons_self
  obtain ⟨_around, _stop, _start, _skipped, _significant, covered⟩ :=
    span_skips_leading_trivia sampleImport sampleChain member
  refine ⟨member, rfl, ?_, rfl⟩
  exact covered [⟨.whitespace, " ", 6⟩, ⟨.lineComment, "--é", 7⟩] ⟨.identifier, "", 11⟩
    [⟨.identifier, "été", 11⟩, ⟨.colonColon, "::", 16⟩] rfl (by decide) (by decide)

end Bindery.Syntax
