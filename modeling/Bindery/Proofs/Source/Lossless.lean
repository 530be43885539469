import Bindery.Proofs.Source.Sites
import Bindery.Proofs.Syntax.Coverage

set_option autoImplicit false

/-! What is written is not lost. A source is written as a text and a stream of events, and the tree
that the events describe has the same text, cut at the same places. Under its root stands one node
for each declaration, with the text that the declaration has by itself. -/

namespace Bindery.Source

open Syntax

/-- A draft that a recorder takes without a refusal, and a tree that has its text and its tokens. -/
structure Draft.Lossless (draft : Draft) (tree : Syntax.Tree) : Prop where
  recorded : draft.events.foldlM Recorder.record? .empty = some ⟨draft.events, 0⟩
  complete : IsNode draft.events
  endToEnd : Span.EndToEnd 0 draft.text.utf8ByteSize
    ((draft.events.filterMap Event.token?).map Prod.snd)
  inside : TokensInside draft.text draft.events
  text : tree.text = draft.text
  placed : tree.tokens.map Token.placed = draft.events.filterMap Event.token?
  pieces : ∀ token ∈ tree.tokens, Text.slice draft.text token.span = some token.text

/-- A node is described by its own text and events without a loss. -/
theorem Draft.lossless_node (kind : Kind) (children : Forest) :
    Draft.Lossless ⟨(Syntax.Tree.node kind children).text, (Syntax.Tree.node kind children).events⟩
      (.node kind children) := by
  have symbols := (Syntax.Tree.node kind children).symbols_events
  have complete : IsNode (Syntax.Tree.node kind children).events := by
    rcases Tree.events_of_symbols (.node kind children) symbols with
      ⟨_kind, _piece, _span, isToken, _events⟩ | complete
    · cases isToken
    · exact complete
  have balanced : Balanced (Syntax.Tree.node kind children).events := by
    obtain ⟨own, inner, inside, split⟩ := complete
    rw [split]
    exact .node own inside .nil
  have placed := (Tree.tokens_eventsFrom 0 0 none (.node kind children)).symm
  refine ⟨balanced.recorded .empty, complete, ?_, ?_, rfl, placed, ?_⟩
  · have own := Tree.endToEnd_tokens 0 0 none (.node kind children)
    rw [Nat.zero_add, ← Tree.utf8ByteSize_text] at own
    change Span.EndToEnd 0 _ (((Tree.eventsFrom 0 _).filterMap Event.token?).map Prod.snd)
    rw [← placed, List.map_map]
    exact own
  · exact (Tree.ofEvents_succeeds_iff.mp ⟨_, Tree.ofEvents_events kind children⟩).1
  · intro token member
    exact (Tree.stands_tokens 0 none _ (.whole _) token member).slice

/-! ### The nodes of declarations -/

/-- The nodes of declarations are found at their sites. -/
theorem nodes_declsLayout (front decls : List Decl) :
    (declsLayout decls front.isEmpty).nodes .program (tree front).text =
      (sites front decls).map fun site =>
        site.decl.content.asNode site.decl.kind (some .program) site.before := by
  induction decls generalizing front with
  | nil => rfl
  | cons decl rest ih =>
      have silent (start : String) :
          (Layout.raw .whitespace "\n").nodes .program start = [] := rfl
      have others := ih (front ++ [decl])
      have more : (front ++ [decl]).isEmpty = false := by simp
      rw [text_tree_concat, more] at others
      rw [declsLayout, Layout.nodes_next, nodes_separator _ _ _ _ silent, List.nil_append,
        Layout.nodes_next, Decl.layout, Layout.nodes_node, sites, List.map_cons, ← others]
      rfl

theorem Site.text_eq (site : Site) :
    Forest.text (site.decl.content site.before) = (tree [site.decl]).text := by
  have written := site.after_eq
  rw [Site.after, Decl.layout, Layout.after_node, Layout.after] at written
  exact (String.append_right_inj _).mp written

theorem kinds_texts_nodes (decls : List Decl) :
    (Forest.nodesFrom .program 0 (declsLayout decls true "")).map
        (fun node => (node.kind, node.text)) =
      decls.map fun decl => (decl.kind, (draft [decl]).text) := by
  have nodes : Forest.nodesFrom .program 0 (declsLayout decls true "") =
      (sites [] decls).map fun site =>
        site.decl.content.asNode site.decl.kind (some .program) site.before :=
    nodes_declsLayout [] decls
  have own (site : Site) :
      Forest.text (site.decl.content site.before) = (draft [site.decl]).text := by
    rw [draft_eq]
    exact site.text_eq
  rw [nodes, List.map_map]
  conv_rhs => rw [← map_decl_sites [] decls, List.map_map]
  apply List.map_congr_left
  intro site _member
  exact congrArg (Prod.mk site.decl.kind) (own site)

/-- Every source can be written. A recorder takes its events without a refusal, and they are those
of one complete node. The tokens lie end to end from the start of the text to its end, between whole
characters. The tree has the text that is returned, with every token at the place where it was
written, and below its root there is a node for each declaration and no other. -/
theorem render_lossless (decls : List Decl) :
    ∃ children, render decls = .ok ((draft decls).text, .node .program children) ∧
      (draft decls).Lossless (.node .program children) ∧
        (Forest.nodesFrom .program 0 children).map (fun node => (node.kind, node.text)) =
          decls.map fun decl => (decl.kind, (draft [decl]).text) := by
  refine ⟨declsLayout decls true "", ?_, ?_, kinds_texts_nodes decls⟩
  · rw [draft_eq]
    exact render_eq decls
  · rw [draft_eq]
    exact Draft.lossless_node .program _

end Bindery.Source
