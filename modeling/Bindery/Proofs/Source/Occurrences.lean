import Bindery.Proofs.Source.Pointing
import Bindery.Proofs.Source.Sites

set_option autoImplicit false

/-! Where the terms of a source stand. A term occurs in another one behind some text, and there the
tree of the source has a node with that term in it. -/

namespace Bindery.Source

open Syntax

/-! ### Nodes of a layout -/

namespace Layout

/-- The nodes of what is laid out, each after the nodes below it. -/
def postorder (layout : Layout) (parent : Option Kind) (before : String) : List Node :=
  Forest.postorderFrom before.utf8ByteSize parent (layout before)

theorem postorder_next (first second : Layout) (parent : Option Kind) (before : String) :
    (first.next second).postorder parent before =
      first.postorder parent before ++ second.postorder parent (first.after before) := by
  rw [postorder, next, postorderFrom_append, ← utf8ByteSize_after]
  rfl

theorem postorder_node (kind : Kind) (body : Layout) (parent : Option Kind) (before : String) :
    (node kind body).postorder parent before =
      body.postorder (some kind) before ++ [body.asNode kind parent before] := by
  rw [postorder, node, Forest.postorderFrom, Forest.postorderFrom, List.append_nil,
    Tree.postorderFrom]
  rfl

section Members

variable {first second body : Layout} {kind : Kind} {parent : Option Kind} {before : String}
  {found : Node}

theorem mem_first (member : found ∈ first.postorder parent before) :
    found ∈ (first.next second).postorder parent before := by
  rw [postorder_next]
  exact List.mem_append_left _ member

theorem mem_second (member : found ∈ second.postorder parent (first.after before)) :
    found ∈ (first.next second).postorder parent before := by
  rw [postorder_next]
  exact List.mem_append_right _ member

theorem mem_inside (member : found ∈ body.postorder (some kind) before) :
    found ∈ (node kind body).postorder parent before := by
  rw [postorder_node]
  exact List.mem_append_left _ member

theorem asNode_mem (kind : Kind) (body : Layout) (parent : Option Kind) (before : String) :
    body.asNode kind parent before ∈ (node kind body).postorder parent before := by
  rw [postorder_node]
  exact List.mem_append_right _ List.mem_cons_self

end Members

end Layout

/-! ### Occurrences -/

/-- The text before the value of an argument. -/
def argumentStart (label : Option String) (isFirst : Bool) (before : String) : String :=
  (labelLayout label).after ((separator isFirst (.raw .comma ",")).after before)

theorem after_argument (label : Option String) (value : Term) (before : String) :
    (Layout.node .argument ((labelLayout label).next value.layout)).after before =
      value.layout.after ((labelLayout label).after before) := by
  rw [Layout.after_node, Layout.after_next]

/-- A term and the text before it. -/
structure Occurrence where
  before : String
  term : Term

mutual

/-- A term and every term in it, each before those that stand in it. -/
def Term.occurrences (term : Term) (before : String) : List Occurrence :=
  ⟨before, term⟩ ::
    match term with
    | .integer _ | .float _ | .string _ | .boolean _ | .identifier _ => []
    | .binary left operator right =>
        let middle := (Layout.word (operatorKind operator) operator.toString).after
          (left.layout.after before)
        left.occurrences before ++ right.occurrences middle
    | .paren inner => inner.occurrences ((Layout.word .leftParen "(").after before)
    | .call callee arguments =>
        let first := (Layout.raw .leftParen "(").after (callee.layout.after before)
        callee.occurrences before ++ Term.occurrencesAll arguments true first

def Term.occurrencesAll : List (Option String × Term) → Bool → String → List Occurrence
  | [], _, _ => []
  | (label, value) :: rest, isFirst, before =>
      let start := argumentStart label isFirst before
      value.occurrences start ++ Term.occurrencesAll rest false (value.layout.after start)

end

/-- The term in the brackets around it. -/
def Term.unwrapped : Term → String → Occurrence
  | .paren inner, before => inner.unwrapped ((Layout.word .leftParen "(").after before)
  | term, before => ⟨before, term⟩

theorem Term.unwrapped_mem_occurrences (before : String) : (term : Term) →
    term.unwrapped before ∈ term.occurrences before
  | .integer _ | .float _ | .string _ | .boolean _ | .identifier _ | .binary .. | .call .. => by
      rw [Term.unwrapped, Term.occurrences]
      · exact List.mem_cons_self
      · intro inner impossible
        cases impossible
  | .paren inner => by
      rw [Term.unwrapped, Term.occurrences]
      exact List.mem_cons_of_mem _ (inner.unwrapped_mem_occurrences _)

mutual

/-- The nodes of a term that occurs in another are nodes of that one. -/
theorem Term.nodes_of_occurrence (parent : Option Kind) (before : String) : (term : Term) →
    ∀ occurrence ∈ term.occurrences before,
      ∃ around, occurrence.term.layout.postorder around occurrence.before ⊆
        term.layout.postorder parent before
  | .integer _ | .float _ | .string _ | .boolean _ | .identifier _ => by
      intro occurrence member
      rw [Term.occurrences] at member
      obtain rfl := List.mem_singleton.mp member
      exact ⟨parent, List.Subset.refl _⟩
  | .binary left operator right => by
      intro occurrence member
      rw [Term.occurrences] at member
      rcases List.mem_cons.mp member with rfl | inside
      · exact ⟨parent, List.Subset.refl _⟩
      · rcases List.mem_append.mp inside with first | second
        · obtain ⟨around, nodes⟩ := Term.nodes_of_occurrence (some .binaryExpr) before left _ first
          exact ⟨around, fun _ found => Layout.mem_inside (Layout.mem_first (nodes found))⟩
        · obtain ⟨around, nodes⟩ := Term.nodes_of_occurrence (some .binaryExpr) _ right _ second
          exact ⟨around, fun _ found =>
            Layout.mem_inside (Layout.mem_second (Layout.mem_second (nodes found)))⟩
  | .paren inner => by
      intro occurrence member
      rw [Term.occurrences] at member
      rcases List.mem_cons.mp member with rfl | inside
      · exact ⟨parent, List.Subset.refl _⟩
      · obtain ⟨around, nodes⟩ := Term.nodes_of_occurrence (some .parenExpr) _ inner _ inside
        exact ⟨around, fun _ found =>
          Layout.mem_inside (Layout.mem_second (Layout.mem_first (nodes found)))⟩
  | .call callee arguments => by
      intro occurrence member
      rw [Term.occurrences] at member
      rcases List.mem_cons.mp member with rfl | inside
      · exact ⟨parent, List.Subset.refl _⟩
      · rcases List.mem_append.mp inside with first | others
        · obtain ⟨around, nodes⟩ := Term.nodes_of_occurrence (some .call) before callee _ first
          exact ⟨around, fun _ found => Layout.mem_inside (Layout.mem_first (nodes found))⟩
        · obtain ⟨around, nodes⟩ :=
            Term.nodes_of_occurrenceAll (some .call) true _ arguments _ others
          exact ⟨around, fun _ found => Layout.mem_inside
            (Layout.mem_second (Layout.mem_second (Layout.mem_first (nodes found))))⟩

theorem Term.nodes_of_occurrenceAll (parent : Option Kind) (isFirst : Bool) (before : String) :
    (arguments : List (Option String × Term)) →
      ∀ occurrence ∈ Term.occurrencesAll arguments isFirst before,
        ∃ around, occurrence.term.layout.postorder around occurrence.before ⊆
          (Term.contentAll arguments isFirst).postorder parent before
  | [] => List.forall_mem_nil _
  | (label, value) :: rest => by
      intro occurrence member
      rw [Term.occurrencesAll] at member
      rcases List.mem_append.mp member with own | others
      · obtain ⟨around, nodes⟩ := Term.nodes_of_occurrence (some .argument) _ value _ own
        exact ⟨around, fun _ found => Layout.mem_second
          (Layout.mem_first (Layout.mem_inside (Layout.mem_second (nodes found))))⟩
      · obtain ⟨around, nodes⟩ := Term.nodes_of_occurrenceAll parent false _ rest _ others
        refine ⟨around, fun _ found => Layout.mem_second (Layout.mem_second ?_)⟩
        rw [← Term.layout, after_argument]
        exact nodes found

end

/-! ### Bodies -/

/-- The body of a declaration at its site, if it has one. -/
def Site.body? (site : Site) : Option Occurrence :=
  match site.decl with
  | .binding exported identifiers (some term) =>
      some ⟨bodyStart exported identifiers site.before, term⟩
  | _ => none

theorem postorder_declsLayout (front decls : List Decl) :
    ∀ site ∈ sites front decls, site.decl.layout.postorder (some .program) site.before ⊆
      (declsLayout decls front.isEmpty).postorder (some .program) (tree front).text := by
  induction decls generalizing front with
  | nil => exact List.forall_mem_nil _
  | cons decl rest ih =>
      intro site member node found
      rw [sites] at member
      rcases List.mem_cons.mp member with rfl | later
      · exact Layout.mem_second (Layout.mem_first found)
      · have inside := ih (front ++ [decl]) site later found
        have more : (front ++ [decl]).isEmpty = false := by simp
        rw [text_tree_concat, more] at inside
        exact Layout.mem_second (Layout.mem_second inside)

/-- The nodes of a body are nodes of the source. -/
theorem Site.nodes_of_body {decls : List Decl} {site : Site} {body : Occurrence}
    (member : site ∈ sites [] decls) (has : site.body? = some body) :
    body.term.layout.postorder (some .binding) body.before ⊆ (tree decls).postorder := by
  obtain ⟨front, decl⟩ := site
  cases decl with
  | bringIn path => cases has
  | binding exported identifiers term? =>
      cases term? with
      | none => cases has
      | some term =>
          obtain rfl := Option.some.inj has
          intro node found
          have inside : node ∈ (declsLayout decls true).postorder (some .program) "" :=
            postorder_declsLayout [] decls _ member (Layout.mem_inside
              (Layout.mem_second (Layout.mem_second (Layout.mem_second found))))
          exact List.mem_append_left _ inside
  | signature name type => cases has
  | typeDefinition exported name fields => cases has

end Bindery.Source
