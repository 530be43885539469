import Bindery.Proofs.Source.Declaration
import Bindery.Proofs.Syntax.Placement

set_option autoImplicit false

/-! Where the elements of a source stand. A node that begins with a word starts where that word
does, behind the blank, and every node of a source but an empty arrow type begins with a word. So
a node covers the text from there up to its own end. -/

namespace Bindery.Source

open Syntax Text

namespace Layout

/-- A layout that begins with a word. -/
def Opens (layout : Layout) : Prop :=
  ∀ before, Forest.significantStart? before.utf8ByteSize (layout before) = some (wordStart before)

theorem opens_word (kind : Kind) (text : String) (significant : kind.isTrivia = false) :
    (word kind text).Opens := by
  intro before
  have blank : Kind.whitespace.isTrivia = true := rfl
  rw [word, next, wordStart, utf8ByteSize_after]
  unfold gap
  split
  · simp [raw, Forest.significantStart?, Tree.significantStart?, significant, Forest.byteSize]
  · simp [raw, Forest.significantStart?, Tree.significantStart?, significant, blank,
      Forest.byteSize, Tree.byteSize]

theorem Opens.next {first : Layout} (opens : first.Opens) (second : Layout) :
    (first.next second).Opens := by
  intro before
  exact significantStart?_append _ (opens before)

theorem Opens.node (kind : Kind) {body : Layout} (opens : body.Opens) :
    (Layout.node kind body).Opens := by
  intro before
  rw [Layout.node, Forest.significantStart?, Tree.significantStart?, opens before]

/-- The text of a layout that begins with a word, without the blank before it. -/
def extent (layout : Layout) (before : String) : Span :=
  ⟨wordStart before, (layout.after before).utf8ByteSize⟩

theorem extent_node (kind : Kind) (body : Layout) (before : String) :
    (Layout.node kind body).extent before = body.extent before := by
  rw [extent, extent, after_node]

variable {layout : Layout}

/-- A node that begins with a word covers the text from that word to its own end. -/
theorem Opens.place (opens : layout.Opens) (before : String) :
    layout.place before = layout.extent before := by
  rw [Layout.place, opens before, Option.getD_some, extent, utf8ByteSize_after]

theorem Opens.ordered (opens : layout.Opens) (before : String) :
    (layout.extent before).start ≤ (layout.extent before).stop := by
  obtain ⟨front, back, split, placed⟩ :=
    Forest.significantStart?_splits _ _ _ (opens before)
  change wordStart before ≤ (layout.after before).utf8ByteSize
  rw [placed, after, split, String.utf8ByteSize_append, String.utf8ByteSize_append]
  omega

theorem size_le_after (layout : Layout) (before : String) :
    before.utf8ByteSize ≤ (layout.after before).utf8ByteSize := by
  rw [utf8ByteSize_after]
  exact Nat.le_add_right _ _

theorem size_le_wordStart (before : String) : before.utf8ByteSize ≤ wordStart before :=
  size_le_after gap before

theorem wordStart_le_after (layout : Layout) (before : String) :
    wordStart before ≤ wordStart (layout.after before) := by
  by_cases nothing : Forest.text (layout before) = ""
  · have same : layout.after before = before := by rw [after, nothing, String.append_empty]
    exact Nat.le_of_eq (congrArg wordStart same.symm)
  · -- A blank is one byte, and so much at least stands behind the text by then.
    have blank : wordStart before ≤ before.utf8ByteSize + 1 := by
      rw [wordStart, utf8ByteSize_after]
      unfold gap
      split
      · exact Nat.le_succ _
      · exact Nat.le_refl _
    have later := size_le_wordStart (layout.after before)
    have more : 0 < (Forest.text (layout before)).utf8ByteSize := by
      rw [Nat.pos_iff_ne_zero, ne_eq, String.utf8ByteSize_eq_zero_iff]
      exact nothing
    rw [after, String.utf8ByteSize_append] at later
    exact Nat.le_trans blank (Nat.le_trans (Nat.add_le_add_left more _) later)

/-! ### Extents of neighbours -/

section Neighbours

variable (first second : Layout) (before : String)

theorem within_first : (first.extent before).Within ((first.next second).extent before) where
  start_le := Nat.le_refl _
  stop_le := by
    rw [extent, extent, after_next]
    exact size_le_after second _

theorem within_second :
    (second.extent (first.after before)).Within ((first.next second).extent before) where
  start_le := wordStart_le_after first before
  stop_le := Nat.le_of_eq (by rw [extent, extent, after_next])

theorem extents_apart : (first.extent before).Before (second.extent (first.after before)) :=
  size_le_wordStart (first.after before)

end Neighbours

/-! ### Texts of nodes -/

theorem begins_before {text before : String} (begins : BeginsWith text (layout.after before)) :
    BeginsWith text before :=
  begins.left

theorem slice_extent {text before piece : String}
    (written : layout.after before = gap.after before ++ piece)
    (begins : BeginsWith text (layout.after before)) :
    Text.slice text (layout.extent before) = some piece := by
  rw [written] at begins
  rw [extent, written, String.utf8ByteSize_append]
  exact begins.stands.slice

theorem Opens.slice {text before piece : String} (opens : layout.Opens)
    (written : layout.after before = gap.after before ++ piece)
    (begins : BeginsWith text (layout.after before)) :
    Text.slice text (layout.place before) = some piece := by
  rw [opens.place]
  exact slice_extent written begins

end Layout

theorem slice_word {text before : String} {kind : Kind} {piece : String}
    (significant : kind.isTrivia = false)
    (begins : BeginsWith text ((Layout.word kind piece).after before)) :
    Text.slice text ((Layout.word kind piece).place before) = some piece :=
  (Layout.opens_word kind piece significant).slice (Layout.after_word kind piece before) begins

/-! ### What begins with a word -/

theorem Term.opens (term : Term) : term.content.Opens := by
  cases term with
  | integer _ | float _ | string _ | boolean _ | identifier _ =>
      exact Layout.opens_word _ _ rfl
  | binary left _ _ => exact (Layout.Opens.node left.kind left.opens).next _
  | paren _ => exact (Layout.opens_word .leftParen "(" rfl).next _
  | call callee _ => exact (Layout.Opens.node callee.kind callee.opens).next _

theorem opens_argument (label : Option String) (value : Term) :
    ((labelLayout label).next value.layout).Opens := by
  cases label with
  | some name => exact ((Layout.opens_word .identifier name rfl).next _).next _
  | none =>
      rw [labelLayout, Layout.nothing_next]
      exact Layout.Opens.node value.kind value.opens

theorem opens_path (path : String) : (pathLayout (splitPath path.toList)).Opens := by
  cases parts : splitPath path.toList with
  | nil => exact absurd parts (splitPath_ne_nil _)
  | cons part rest => exact (Layout.opens_word .identifier _ rfl).next _

theorem opens_field (field : String × TypeExpr) : (fieldContent field).Opens :=
  (Layout.opens_word .identifier field.1 rfl).next _

theorem opens_behind_visibility (exported : Bool) {layout : Layout} (opens : layout.Opens) :
    ((visibilityLayout exported).next layout).Opens := by
  cases exported with
  | true => exact (Layout.Opens.node .visibility (Layout.opens_word .pubWord "pub" rfl)).next _
  | false =>
      change (Layout.nothing.next layout).Opens
      rw [Layout.nothing_next]
      exact opens

theorem Decl.opens (decl : Decl) : decl.content.Opens := by
  cases decl with
  | bringIn path => exact (Layout.opens_word .importWord "import" rfl).next _
  | binding exported identifiers body =>
      apply opens_behind_visibility
      cases identifiers with
      | nil =>
          change (Layout.nothing.next _).Opens
          rw [Layout.nothing_next]
          exact (Layout.opens_word .equals "=" rfl).next _
      | cons name rest => exact ((Layout.opens_word .identifier name rfl).next _).next _
  | signature name type => exact (Layout.opens_word .identifier name rfl).next _
  | typeDefinition exported name fields =>
      apply opens_behind_visibility
      exact (Layout.opens_word .typeWord "type" rfl).next _

/-! ### Texts, part by part -/

theorem Term.after_layout (term : Term) (before : String) :
    term.layout.after before = term.content.after before :=
  Layout.after_node term.kind term.content before

theorem Term.after_binary (left : Term) (symbol : Char) (right : Term) (before : String) :
    (Term.binary left symbol right).layout.after before =
      right.layout.after ((Layout.word (operatorKind symbol) symbol.toString).after
        (left.layout.after before)) := by
  rw [Term.after_layout, Term.content, Layout.after_next, Layout.after_next]
  rfl

theorem Term.after_paren (inner : Term) (before : String) :
    (Term.paren inner).layout.after before =
      (Layout.raw .rightParen ")").after
        (inner.layout.after ((Layout.word .leftParen "(").after before)) := by
  rw [Term.after_layout, Term.content, Layout.after_next, Layout.after_next]
  rfl

theorem Term.after_call (callee : Term) (arguments : List (Option String × Term))
    (before : String) :
    (Term.call callee arguments).layout.after before =
      (Layout.raw .rightParen ")").after
        ((Term.contentAll arguments true).after
          ((Layout.raw .leftParen "(").after (callee.layout.after before))) := by
  rw [Term.after_layout, Term.content, Layout.after_next, Layout.after_next, Layout.after_next]
  rfl

/-- The argument stands behind the comma and the others behind it. -/
theorem Term.after_arguments (label : Option String) (value : Term)
    (rest : List (Option String × Term)) (isFirst : Bool) (before : String) :
    (Term.contentAll ((label, value) :: rest) isFirst).after before =
      (Term.contentAll rest false).after
        ((Layout.node .argument ((labelLayout label).next value.layout)).after
          ((separator isFirst (.raw .comma ",")).after before)) := by
  rw [Term.contentAll, Layout.after_next, Layout.after_next]
  rfl

theorem after_field (field : String × TypeExpr) (before : String) :
    (fieldContent field).after before = field.2.layout.after (fieldTypeStart field.1 before) := by
  rw [fieldContent, Layout.after_next, Layout.after_next]
  rfl

theorem after_fields (field : String × TypeExpr) (rest : List (String × TypeExpr))
    (isFirst : Bool) (before : String) :
    (fieldsLayout (field :: rest) isFirst).after before =
      (fieldsLayout rest false).after
        ((Layout.node .typeField (fieldContent field)).after (fieldStart isFirst before)) := by
  rw [fieldsLayout, Layout.after_next, Layout.after_next]
  rfl

theorem after_binding (exported : Bool) (identifiers : List String) (body : Option Term)
    (before : String) :
    (Decl.binding exported identifiers body).layout.after before =
      (bodyLayout body).after (bodyStart exported identifiers before) := by
  rw [Decl.layout, Layout.after_node, Decl.content, Layout.after_next, Layout.after_next,
    Layout.after_next]
  rfl

theorem after_signature (name : String) (type : TypeExpr) (before : String) :
    (Decl.signature name type).layout.after before =
      type.layout.after ((Layout.word .colonColon "::").after
        ((Layout.word .identifier name).after before)) := by
  rw [Decl.layout, Layout.after_node, Decl.content, Layout.after_next, Layout.after_next]

theorem after_typeDefinition (exported : Bool) (name : String)
    (fields : List (String × TypeExpr)) (before : String) :
    (Decl.typeDefinition exported name fields).layout.after before =
      (Layout.raw .rightParen ")").after
        ((fieldsLayout fields true).after (fieldsStart exported name before)) := by
  rw [Decl.layout, Layout.after_node, Decl.content, Layout.after_next, Layout.after_next,
    Layout.after_next, Layout.after_next, Layout.after_next]
  rfl

/-! ### Paths -/

/-- A layout without blanks. -/
def Layout.Tight (layout : Layout) : Prop :=
  ∀ before, Forest.text (layout before) = Forest.significantText (layout before)

theorem tight_raw {kind : Kind} (text : String) (significant : kind.isTrivia = false) :
    (Layout.raw kind text).Tight := by
  intro before
  rw [significantText_raw _ _ _ significant]
  exact String.append_empty

theorem tight_next {first second : Layout} (firstTight : first.Tight)
    (secondTight : second.Tight) : (first.next second).Tight := by
  intro before
  rw [significantText_next, Layout.next, Forest.text_append, firstTight, secondTight]

theorem tight_all {layouts : List Layout} (tight : ∀ layout ∈ layouts, layout.Tight) :
    (Layout.all layouts).Tight := by
  induction layouts with
  | nil =>
      intro before
      rfl
  | cons layout rest ih =>
      rw [List.forall_mem_cons] at tight
      exact tight_next tight.1 (ih tight.2)

/-- The parts of a path and the colons between them make up the path, behind a blank if there is
one. -/
theorem after_pathLayout (path before : String) :
    (pathLayout (splitPath path.toList)).after before = Layout.gap.after before ++ path := by
  have said := significantText_pathLayout path before
  cases parts : splitPath path.toList with
  | nil => exact absurd parts (splitPath_ne_nil _)
  | cons part rest =>
      have tight : (Layout.all (rest.map fun other =>
          (Layout.raw .colonColon "::").next
            (.raw .identifier (String.ofList other)))).Tight := by
        apply tight_all
        intro layout member
        obtain ⟨other, _present, rfl⟩ := List.mem_map.mp member
        exact tight_next (tight_raw "::" rfl) (tight_raw _ rfl)
      rw [parts, pathLayout, significantText_next, significantText_word _ _ _ rfl,
        ← tight, Layout.after_word] at said
      rw [pathLayout, Layout.after_next, Layout.after_word, Layout.after, String.append_assoc,
        said]

theorem slice_path {text before path : String}
    (begins : BeginsWith text ((pathLayout (splitPath path.toList)).after before)) :
    Text.slice text ((pathLayout (splitPath path.toList)).place before) = some path :=
  (opens_path path).slice (after_pathLayout path before) begins

end Bindery.Source
