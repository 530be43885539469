import Bindery.Proofs.Syntax.Balance
import Bindery.Proofs.Syntax.Replay
import Bindery.Proofs.Text.Slicing

set_option autoImplicit false

/-! What a tree and a stream of events have in common: the brackets around nodes, and tokens with
their texts. The places of tokens differ, as a tree counts them from its own start. The symbols of a
forest determine it, and balanced events have the symbols of a forest. -/

namespace Bindery.Syntax

/-- An event without the place of its token, but with the text that stands there. -/
inductive Symbol where
  | opening (kind : Kind)
  | token (kind : Kind) (text : String)
  | closing
  deriving DecidableEq, Repr

mutual

/-- The symbols of a tree, each node around its children. -/
def Tree.symbols : Tree → List Symbol
  | .token kind text => [.token kind text]
  | .node kind children => .opening kind :: Forest.symbols children ++ [.closing]

def Forest.symbols : Forest → List Symbol
  | [] => []
  | tree :: rest => tree.symbols ++ Forest.symbols rest

end

theorem Forest.symbols_append (left right : Forest) :
    Forest.symbols (left ++ right) = Forest.symbols left ++ Forest.symbols right := by
  induction left with
  | nil => rfl
  | cons tree rest ih => rw [List.cons_append, symbols, symbols, ih, List.append_assoc]

theorem Forest.symbols_singleton (tree : Tree) : Forest.symbols [tree] = tree.symbols :=
  List.append_nil _

/-! ### Symbols determine the forest -/

/-- Adds one symbol to what has been read; a closing one without an open node is passed over. -/
def Scaffold.read (scaffold : Scaffold) : Symbol → Scaffold
  | .opening kind => { scaffold with openNodes := ⟨kind, []⟩ :: scaffold.openNodes }
  | .token kind text => scaffold.add (.token kind text)
  | .closing =>
      match scaffold.openNodes with
      | [] => scaffold
      | inner :: outer => { scaffold with openNodes := outer }.add (.node inner.kind inner.children)

mutual

theorem Tree.foldl_symbols (scaffold : Scaffold) : (tree : Tree) →
    tree.symbols.foldl Scaffold.read scaffold = scaffold.add tree
  | .token kind text => rfl
  | .node kind children => by
      have inner := Forest.foldl_symbols
        { scaffold with openNodes := ⟨kind, []⟩ :: scaffold.openNodes } children
      rw [Scaffold.addAll_inside, List.nil_append] at inner
      rw [Tree.symbols, List.cons_append, List.foldl_cons, Scaffold.read, List.foldl_append, inner]
      rfl

/-- Reading the symbols of a forest adds the forest. -/
theorem Forest.foldl_symbols (scaffold : Scaffold) : (forest : Forest) →
    (Forest.symbols forest).foldl Scaffold.read scaffold = scaffold.addAll forest
  | [] => rfl
  | tree :: rest => by
      rw [Forest.symbols, List.foldl_append, Tree.foldl_symbols scaffold tree,
        Forest.foldl_symbols (scaffold.add tree) rest, Scaffold.addAll_cons]

end

theorem Scaffold.addAll_outside (outside forest : Forest) :
    addAll ⟨outside, []⟩ forest = ⟨outside ++ forest, []⟩ := by
  induction forest generalizing outside with
  | nil =>
      rw [List.append_nil]
      rfl
  | cons tree rest ih =>
      rw [addAll_cons]
      change addAll ⟨outside ++ [tree], []⟩ rest = _
      rw [ih, List.append_assoc]
      rfl

theorem Forest.eq_of_symbols_eq {forest other : Forest}
    (same : Forest.symbols forest = Forest.symbols other) : forest = other := by
  have read := congrArg (List.foldl Scaffold.read Scaffold.empty) same
  rw [Forest.foldl_symbols, Forest.foldl_symbols, Scaffold.empty, Scaffold.addAll_outside,
    Scaffold.addAll_outside] at read
  exact congrArg Scaffold.outside read

/-! ### Symbols of events -/

/-- The event with the text that its token covers; `none` if it covers no whole characters. -/
def Event.symbol? (text : String) : Event → Option Symbol
  | .start kind => some (.opening kind)
  | .token kind span => (Text.slice text span).map (.token kind)
  | .finish => some .closing

/-- Every token covers whole characters of the text. -/
def TokensInside (text : String) (events : List Event) : Prop :=
  ∀ kind span, Event.token kind span ∈ events → span.Inside text

section Events

variable {text : String} {event : Event} {events inner rest : List Event} {kind : Kind}
  {span : Span}

theorem tokensInside_nil : TokensInside text [] := by
  intro kind span impossible
  cases impossible

theorem tokensInside_start : TokensInside text (.start kind :: rest) ↔ TokensInside text rest := by
  unfold TokensInside
  simp only [List.mem_cons, reduceCtorEq, false_or]

theorem tokensInside_finish : TokensInside text (.finish :: rest) ↔ TokensInside text rest := by
  unfold TokensInside
  simp only [List.mem_cons, reduceCtorEq, false_or]

theorem tokensInside_token :
    TokensInside text (.token kind span :: rest) ↔
      span.Inside text ∧ TokensInside text rest := by
  unfold TokensInside
  simp only [List.mem_cons, Event.token.injEq]
  constructor
  · intro inside
    exact ⟨inside kind span (Or.inl ⟨rfl, rfl⟩), fun other place later =>
      inside other place (Or.inr later)⟩
  · rintro ⟨first, others⟩ other place (⟨rfl, rfl⟩ | later)
    · exact first
    · exact others other place later

theorem tokensInside_append :
    TokensInside text (inner ++ rest) ↔ TokensInside text inner ∧ TokensInside text rest := by
  unfold TokensInside
  simp only [List.mem_append, or_imp, forall_and]

theorem TokensInside.sublist (inside : TokensInside text events) (fewer : rest.Sublist events) :
    TokensInside text rest :=
  fun kind span token => inside kind span (fewer.subset token)

theorem eq_start_of_symbol? (opens : event.symbol? text = some (.opening kind)) :
    event = .start kind := by
  cases event with
  | start other =>
      obtain rfl := Symbol.opening.inj (Option.some.inj opens)
      rfl
  | token other place =>
      obtain ⟨piece, _cut, impossible⟩ := Option.map_eq_some_iff.mp opens
      cases impossible
  | finish => cases opens

theorem eq_finish_of_symbol? (closes : event.symbol? text = some .closing) : event = .finish := by
  cases event with
  | start other => cases closes
  | token other place =>
      obtain ⟨piece, _cut, impossible⟩ := Option.map_eq_some_iff.mp closes
      cases impossible
  | finish => rfl

theorem eq_token_of_symbol? {piece : String}
    (covers : event.symbol? text = some (.token kind piece)) :
    ∃ place, event = .token kind place := by
  cases event with
  | start other => cases covers
  | token other place =>
      obtain ⟨cut, _cutEq, same⟩ := Option.map_eq_some_iff.mp covers
      obtain ⟨rfl, _pieceEq⟩ := Symbol.token.inj same
      exact ⟨place, rfl⟩
  | finish => cases covers

end Events

/-- Balanced events with tokens inside the text have the symbols of a forest. -/
theorem Balanced.exists_forest {text : String} {events : List Event} (balanced : Balanced events)
    (inside : TokensInside text events) :
    ∃ forest, events.map (Event.symbol? text) = (Forest.symbols forest).map some := by
  induction balanced with
  | nil => exact ⟨[], rfl⟩
  | token kind span _after ih =>
      obtain ⟨covered, others⟩ := tokensInside_token.mp inside
      obtain ⟨piece, cut⟩ := Option.isSome_iff_exists.mp (Text.isSome_slice_iff.mpr covered)
      obtain ⟨forest, symbols⟩ := ih others
      refine ⟨.token kind piece :: forest, ?_⟩
      rw [List.map_cons, symbols, Event.symbol?, cut]
      rfl
  | node kind _inside _after ihInside ihAfter =>
      rw [List.cons_append, tokensInside_start, tokensInside_append, tokensInside_finish] at inside
      obtain ⟨children, innerSymbols⟩ := ihInside inside.1
      obtain ⟨forest, restSymbols⟩ := ihAfter inside.2
      refine ⟨.node kind children :: forest, ?_⟩
      rw [List.cons_append, List.map_cons, List.map_append, List.map_cons, innerSymbols,
        restSymbols, Forest.symbols, Tree.symbols]
      simp [Event.symbol?]

/-- The events of a complete node with tokens inside the text have the symbols of a node. -/
theorem IsNode.exists_node {text : String} {events : List Event} (complete : IsNode events)
    (inside : TokensInside text events) :
    ∃ kind children,
      events.map (Event.symbol? text) = (Tree.node kind children).symbols.map some := by
  obtain ⟨kind, inner, balanced, rfl⟩ := complete
  rw [List.cons_append, tokensInside_start, tokensInside_append] at inside
  obtain ⟨children, symbols⟩ := balanced.exists_forest inside.1
  refine ⟨kind, children, ?_⟩
  rw [Tree.symbols, List.map_append, List.map_cons, symbols, List.map_append, List.map_cons]
  rfl

mutual

theorem Tree.events_of_symbols {text : String} : (tree : Tree) → {events : List Event} →
    events.map (Event.symbol? text) = tree.symbols.map some →
      (∃ kind piece span, tree = .token kind piece ∧ events = [.token kind span]) ∨
        IsNode events
  | .token kind piece, events, same => by
      obtain ⟨event, rfl, symbol⟩ := List.map_eq_singleton_iff.mp same
      obtain ⟨place, rfl⟩ := eq_token_of_symbol? symbol
      exact Or.inl ⟨kind, piece, place, rfl, rfl⟩
  | .node kind children, events, same => by
      rw [Tree.symbols, List.cons_append, List.map_cons, List.map_append] at same
      obtain ⟨first, others, rfl, opens, behind⟩ := List.map_eq_cons_iff.mp same
      obtain ⟨inner, lasts, rfl, innerSame, closes⟩ := List.map_eq_append_iff.mp behind
      obtain ⟨last, rfl, lastSymbol⟩ := List.map_eq_singleton_iff.mp closes
      obtain rfl := eq_start_of_symbol? opens
      obtain rfl := eq_finish_of_symbol? lastSymbol
      exact Or.inr ⟨kind, inner, Forest.balanced_of_symbols children innerSame, rfl⟩

/-- Events with the symbols of a forest are balanced. -/
theorem Forest.balanced_of_symbols {text : String} : (forest : Forest) → {events : List Event} →
    events.map (Event.symbol? text) = (Forest.symbols forest).map some → Balanced events
  | [], events, same => by
      obtain rfl := List.map_eq_nil_iff.mp same
      exact .nil
  | tree :: rest, events, same => by
      rw [Forest.symbols, List.map_append] at same
      obtain ⟨front, behind, rfl, frontSame, behindSame⟩ := List.map_eq_append_iff.mp same
      have after := Forest.balanced_of_symbols rest behindSame
      rcases Tree.events_of_symbols tree frontSame with
        ⟨kind, _piece, span, _isToken, rfl⟩ | ⟨kind, inner, inside, rfl⟩
      · exact .token kind span after
      · rw [List.append_assoc]
        exact .node kind inside after

end

end Bindery.Syntax
