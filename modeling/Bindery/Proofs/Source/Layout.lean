import Bindery.Proofs.Syntax.Concatenation
import Bindery.Source.Draft

set_option autoImplicit false

/-! The tree of a source, without text and events. What is laid out depends on the text before it,
because of the blanks between words. Writing a source and then building its tree from the events
gives the tree that is laid out, so every source has a tree. -/

namespace Bindery.Source

open Syntax

/-- Neighbouring elements, for every text that may stand before them. -/
abbrev Layout := String → Forest

namespace Layout

def nothing : Layout := fun _ => []

def raw (kind : Kind) (text : String) : Layout := fun _ => [.token kind text]

/-- The text after what is laid out. -/
def after (layout : Layout) (before : String) : String := before ++ Forest.text (layout before)

def next (first second : Layout) : Layout := fun before =>
  first before ++ second (first.after before)

/-- The blank before a word, unless a word may stand right after the text. -/
def gap : Layout := fun before =>
  if Draft.isOpenEnded before then [] else [.token .whitespace " "]

def word (kind : Kind) (text : String) : Layout := gap.next (raw kind text)

def node (kind : Kind) (body : Layout) : Layout := fun before => [.node kind (body before)]

def all (layouts : List Layout) : Layout := layouts.foldr next nothing

theorem after_nothing (before : String) : nothing.after before = before := by
  rw [after, nothing, Forest.text, String.append_empty]

theorem after_next (first second : Layout) (before : String) :
    (first.next second).after before = second.after (first.after before) := by
  rw [after, next, Forest.text_append, ← String.append_assoc]
  rfl

theorem after_raw (kind : Kind) (text before : String) :
    (raw kind text).after before = before ++ text := by
  rw [after, raw, Forest.text, Forest.text, Tree.text, String.append_empty]

theorem after_node (kind : Kind) (body : Layout) (before : String) :
    (node kind body).after before = body.after before := by
  rw [after, node, Forest.text, Forest.text, Tree.text, String.append_empty]
  rfl

theorem after_word (kind : Kind) (text before : String) :
    (word kind text).after before = gap.after before ++ text := by
  rw [word, after_next, after_raw]

theorem nothing_next (layout : Layout) : nothing.next layout = layout := by
  funext before
  rw [next, after_nothing]
  rfl

theorem next_assoc (first second third : Layout) :
    (first.next second).next third = first.next (second.next third) := by
  funext before
  rw [next, next, next, after_next, next, List.append_assoc]

/-- The next element starts where the text so far ends. -/
theorem utf8ByteSize_after (layout : Layout) (before : String) :
    (layout.after before).utf8ByteSize =
      before.utf8ByteSize + Forest.byteSize (layout before) := by
  rw [after, String.utf8ByteSize_append, Forest.utf8ByteSize_text]

end Layout

/-! ### Drafts -/

namespace Draft

/-- The draft with more elements at its end. -/
def lay (draft : Draft) (layout : Layout) : Draft :=
  ⟨layout.after draft.text,
    draft.events ++ Forest.eventsFrom draft.text.utf8ByteSize (layout draft.text)⟩

theorem lay_nothing (draft : Draft) : draft.lay .nothing = draft := by
  rw [lay, Layout.after_nothing, Layout.nothing, Forest.eventsFrom, List.append_nil]

theorem lay_next (draft : Draft) (first second : Layout) :
    draft.lay (first.next second) = (draft.lay first).lay second := by
  unfold lay
  rw [Layout.after_next, Layout.next, eventsFrom_append, ← List.append_assoc,
    Layout.utf8ByteSize_after]

theorem raw_eq_lay (kind : Kind) (text : String) (draft : Draft) :
    draft.raw kind text = draft.lay (.raw kind text) := by
  simp [raw, lay, Layout.after, Layout.raw, Forest.text, Forest.eventsFrom, Tree.text,
    Tree.eventsFrom]

theorem word_eq_lay (kind : Kind) (text : String) (draft : Draft) :
    draft.word kind text = draft.lay (.word kind text) := by
  rw [Layout.word, lay_next, ← raw_eq_lay, word]
  congr 1
  by_cases open_ : isOpenEnded draft.text
  · rw [if_pos open_]
    simp [lay, Layout.after, Layout.gap, open_, Forest.text, Forest.eventsFrom]
  · rw [if_neg open_, raw_eq_lay]
    simp [lay, Layout.after, Layout.gap, open_, Layout.raw]

theorem node_eq_lay (kind : Kind) (body : Draft → Draft) (layout : Layout)
    (same : ∀ draft : Draft, body draft = draft.lay layout) (draft : Draft) :
    draft.node kind body = draft.lay (.node kind layout) := by
  rw [node, same]
  simp [lay, Layout.after, Layout.node, Forest.text, Forest.eventsFrom, Tree.text,
    Tree.eventsFrom]

theorem foldl_eq_lay {α : Type} (step : Draft → α → Draft) (layout : α → Layout)
    (same : ∀ draft item, step draft item = draft.lay (layout item)) (items : List α)
    (draft : Draft) :
    items.foldl step draft = draft.lay (.all (items.map layout)) := by
  induction items generalizing draft with
  | nil => exact (lay_nothing draft).symm
  | cons item rest ih =>
      rw [List.foldl_cons, same, ih, ← lay_next]
      rfl

end Draft

/-! ### Tokens and nodes -/

namespace Layout

def asNode (content : Layout) (kind : Kind) (parent : Option Kind) (before : String) : Node :=
  ⟨kind, content before, before.utf8ByteSize, parent⟩

def place (content : Layout) (before : String) : Span :=
  ⟨(Forest.significantStart? before.utf8ByteSize (content before)).getD before.utf8ByteSize,
    before.utf8ByteSize + Forest.byteSize (content before)⟩

def tokensOf (layout : Layout) (kind : Kind) (before : String) : List Token :=
  (Forest.tokensFrom before.utf8ByteSize (layout before)).filter fun token => token.kind = kind

def nodes (layout : Layout) (parent : Kind) (before : String) : List Node :=
  Forest.nodesFrom parent before.utf8ByteSize (layout before)

def wordStart (before : String) : Nat := (gap.after before).utf8ByteSize

theorem span_asNode (content : Layout) (kind : Kind) (parent : Option Kind) (before : String) :
    (content.asNode kind parent before).span = content.place before := rfl

theorem tokensOf_asNode (content : Layout) (kind wanted : Kind) (parent : Option Kind)
    (before : String) :
    (content.asNode kind parent before).tokensOf wanted = content.tokensOf wanted before := rfl

theorem nodes_asNode (content : Layout) (kind : Kind) (parent : Option Kind) (before : String) :
    (content.asNode kind parent before).nodes = content.nodes kind before := rfl

@[simp] theorem tokensOf_nothing (kind : Kind) (before : String) :
    nothing.tokensOf kind before = [] := rfl

@[simp] theorem tokensOf_next (first second : Layout) (kind : Kind) (before : String) :
    (first.next second).tokensOf kind before =
      first.tokensOf kind before ++ second.tokensOf kind (first.after before) := by
  rw [tokensOf, next, tokensFrom_append, List.filter_append, ← utf8ByteSize_after]
  rfl

@[simp] theorem tokensOf_node (kind wanted : Kind) (body : Layout) (before : String) :
    (node kind body).tokensOf wanted before = [] := rfl

@[simp] theorem tokensOf_raw (kind wanted : Kind) (text : String) (before : String) :
    (raw kind text).tokensOf wanted before =
      if kind = wanted then [⟨kind, text, before.utf8ByteSize⟩] else [] := by
  by_cases same : kind = wanted <;> simp [tokensOf, raw, Forest.tokensFrom, same]

theorem tokensOf_gap (wanted : Kind) (significant : wanted.isTrivia = false) (before : String) :
    gap.tokensOf wanted before = [] := by
  have blank : Kind.whitespace ≠ wanted := by
    intro same
    rw [← same] at significant
    cases significant
  unfold tokensOf gap
  split
  · rfl
  · simp [Forest.tokensFrom, blank]

/-- The blank before a word is no token that anybody looks for. -/
theorem tokensOf_word (kind wanted : Kind) (text : String) (significant : wanted.isTrivia = false)
    (before : String) :
    (word kind text).tokensOf wanted before =
      if kind = wanted then [⟨kind, text, wordStart before⟩] else [] := by
  rw [word, tokensOf_next, tokensOf_gap wanted significant, List.nil_append, tokensOf_raw]
  rfl

@[simp] theorem nodes_nothing (parent : Kind) (before : String) :
    nothing.nodes parent before = [] := rfl

@[simp] theorem nodes_next (first second : Layout) (parent : Kind) (before : String) :
    (first.next second).nodes parent before =
      first.nodes parent before ++ second.nodes parent (first.after before) := by
  rw [nodes, next, nodesFrom_append, ← utf8ByteSize_after]
  rfl

@[simp] theorem nodes_node (kind parent : Kind) (body : Layout) (before : String) :
    (node kind body).nodes parent before = [body.asNode kind (some parent) before] := rfl

@[simp] theorem nodes_raw (kind parent : Kind) (text before : String) :
    (raw kind text).nodes parent before = [] := rfl

@[simp] theorem nodes_word (kind parent : Kind) (text before : String) :
    (word kind text).nodes parent before = [] := by
  rw [word, nodes_next, nodes_raw, List.append_nil]
  unfold nodes gap
  split <;> rfl

end Layout

end Bindery.Source
