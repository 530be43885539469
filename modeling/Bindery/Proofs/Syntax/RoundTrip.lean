import Bindery.Proofs.Syntax.Pile
import Bindery.Proofs.Syntax.Symbols

set_option autoImplicit false

/-! Events and trees are inverse to each other. The events of a node give the node again. In the
other direction a run over any events is followed by the symbols it has read: an open node counts
with its start as long as events that finish it are still to come, and otherwise only with what
stands in it. -/

namespace Bindery.Syntax

/-! ### Which runs succeed -/

theorem Scaffold.length_openNodes_add (scaffold : Scaffold) (tree : Tree) :
    (scaffold.add tree).openNodes.length = scaffold.openNodes.length := by
  obtain ⟨outside, openNodes⟩ := scaffold
  cases openNodes <;> rfl

/-- A run fails only at a token outside the text, or if more nodes are finished than are open. -/
theorem Scaffold.run_succeeds_iff (text : String) (events : List Event) (scaffold : Scaffold) :
    (∃ result, events.foldlM (apply text) scaffold = .ok result) ↔
      TokensInside text events ∧ finishedBefore events ≤ scaffold.openNodes.length := by
  induction events generalizing scaffold with
  | nil => exact iff_of_true ⟨scaffold, rfl⟩ ⟨tokensInside_nil, Nat.zero_le _⟩
  | cons event rest ih =>
      cases event with
      | start kind =>
          have next := ih { scaffold with openNodes := ⟨kind, []⟩ :: scaffold.openNodes }
          rw [List.length_cons, ← Nat.sub_le_iff_le_add] at next
          rw [tokensInside_start, finishedBefore]
          exact next
      | token kind span =>
          rw [List.foldlM_cons, apply, tokensInside_token, finishedBefore,
            ← Text.isSome_slice_iff]
          cases Text.slice text span with
          | none =>
              refine iff_of_false ?_ ?_
              · rintro ⟨result, impossible⟩
                cases impossible
              · rintro ⟨⟨impossible, _others⟩, _enough⟩
                cases impossible
          | some piece =>
              have next := ih (scaffold.add (.token kind piece))
              rw [length_openNodes_add] at next
              rw [Option.isSome_some, eq_self, true_and]
              exact next
      | finish =>
          obtain ⟨outside, openNodes⟩ := scaffold
          rw [tokensInside_finish, finishedBefore]
          cases openNodes with
          | nil =>
              refine iff_of_false ?_ ?_
              · rintro ⟨result, impossible⟩
                cases impossible
              · rintro ⟨_inside, enough⟩
                exact Nat.not_succ_le_zero _ enough
          | cons inner outer =>
              have next := ih (add ⟨outside, outer⟩ (.node inner.kind inner.children))
              rw [length_openNodes_add] at next
              rw [List.length_cons, Nat.add_le_add_iff_right]
              exact next

/-! ### What a run has read -/

/-- The symbols of what stands outside the open nodes and in them. Of the open nodes the innermost
`count` are finished later, and have their opening. -/
def Scaffold.symbolsAround (outside : Forest) (count : Nat) : List OpenNode → List Symbol
  | [] => Forest.symbols outside
  | inner :: outer =>
      symbolsAround outside (count - 1) outer ++
        (if 0 < count then [.opening inner.kind] else []) ++ Forest.symbols inner.children

def Scaffold.symbols (scaffold : Scaffold) (count : Nat) : List Symbol :=
  symbolsAround scaffold.outside count scaffold.openNodes

namespace Scaffold

/-- If no open node is finished later, nothing is left of any but its children. -/
theorem symbols_zero (scaffold : Scaffold) :
    scaffold.symbols 0 = Forest.symbols scaffold.elements := by
  obtain ⟨outside, openNodes⟩ := scaffold
  unfold symbols
  dsimp only
  induction openNodes with
  | nil => rw [symbolsAround, elements, List.reverse_nil, List.flatMap_nil, List.append_nil]
  | cons inner outer ih =>
      rw [symbolsAround, Nat.zero_sub, ih, if_neg (Nat.lt_irrefl 0), List.append_nil,
        elements_cons, Forest.symbols_append]

theorem symbols_add (scaffold : Scaffold) (tree : Tree) (count : Nat) :
    (scaffold.add tree).symbols count = scaffold.symbols count ++ tree.symbols := by
  obtain ⟨outside, openNodes⟩ := scaffold
  unfold symbols
  cases openNodes with
  | nil =>
      change Forest.symbols (outside ++ [tree]) = Forest.symbols outside ++ tree.symbols
      rw [Forest.symbols_append, Forest.symbols_singleton]
  | cons inner outer =>
      dsimp only [add]
      rw [symbolsAround, symbolsAround, Forest.symbols_append, Forest.symbols_singleton,
        List.append_assoc _ _ tree.symbols]

/-- Along a run the symbols grow by those of the events, without the starts of nodes that stay
open. -/
theorem symbols_of_run {text : String} {events : List Event} {scaffold result : Scaffold}
    (run : events.foldlM (apply text) scaffold = .ok result) :
    (result.symbols 0).map some =
      (scaffold.symbols (finishedBefore events)).map some ++
        (withoutUnfinished events).map (Event.symbol? text) := by
  induction events generalizing scaffold with
  | nil =>
      obtain rfl := Except.ok.inj run
      exact (List.append_nil _).symm
  | cons event rest ih =>
      cases event with
      | start kind =>
          have next := @ih { scaffold with openNodes := ⟨kind, []⟩ :: scaffold.openNodes } run
          rw [next, symbols, symbolsAround, finishedBefore, withoutUnfinished]
          -- Both sides ask whether the node is finished in what follows.
          by_cases finished : 0 < finishedBefore rest
          · rw [if_pos finished, if_pos ((lt_finishedBefore_iff 0 rest).mp finished)]
            simp [symbols, Forest.symbols, Event.symbol?]
          · rw [if_neg finished, if_neg (finished ∘ (lt_finishedBefore_iff 0 rest).mpr)]
            simp [symbols, Forest.symbols]
      | token kind span =>
          rw [List.foldlM_cons, apply] at run
          rw [finishedBefore, withoutUnfinished, List.map_cons, Event.symbol?]
          · cases cut : Text.slice text span with
            | none =>
                rw [cut] at run
                cases run
            | some piece =>
                rw [cut] at run
                rw [ih run, symbols_add, List.map_append, List.append_assoc]
                rfl
          · intro other impossible
            cases impossible
      | finish =>
          obtain ⟨outside, openNodes⟩ := scaffold
          cases openNodes with
          | nil => cases run
          | cons inner outer =>
              have next := @ih (add ⟨outside, outer⟩ (.node inner.kind inner.children)) run
              rw [next, symbols_add]
              simp [symbols, symbolsAround, finishedBefore, withoutUnfinished, Tree.symbols,
                Event.symbol?]

end Scaffold

/-! ### The symbols of a tree's own events -/

mutual

theorem Tree.symbols_eventsFrom (before after : String) : (tree : Tree) →
    (tree.eventsFrom before.utf8ByteSize).map
      (Event.symbol? (before ++ tree.text ++ after)) = tree.symbols.map some
  | .token kind text => by
      rw [Tree.eventsFrom, Tree.text, List.map_singleton, Event.symbol?, Text.slice_append]
      rfl
  | .node kind children => by
      rw [Tree.eventsFrom, Tree.text, Tree.symbols, List.map_append, List.map_append,
        List.map_cons, List.map_cons, Forest.symbols_eventsFrom before after children]
      rfl

theorem Forest.symbols_eventsFrom (before after : String) : (forest : Forest) →
    (Forest.eventsFrom before.utf8ByteSize forest).map
      (Event.symbol? (before ++ Forest.text forest ++ after)) =
        (Forest.symbols forest).map some
  | [] => rfl
  | tree :: rest => by
      have first := Tree.symbols_eventsFrom before (Forest.text rest ++ after) tree
      have others := Forest.symbols_eventsFrom (before ++ tree.text) after rest
      rw [String.utf8ByteSize_append, tree.utf8ByteSize_text] at others
      rw [← String.append_assoc] at first
      rw [Forest.eventsFrom, Forest.text, Forest.symbols, List.map_append, List.map_append,
        ← String.append_assoc, first, others]

end

theorem Tree.symbols_events (tree : Tree) :
    tree.events.map (Event.symbol? tree.text) = tree.symbols.map some := by
  have own := tree.symbols_eventsFrom "" ""
  rw [String.empty_append, String.append_empty] at own
  exact own

/-! ### Which events describe a tree -/

section Trees

variable {text : String} {events : List Event}

theorem Scaffold.tree_eq_ok_iff {scaffold : Scaffold} {tree : Tree} :
    scaffold.tree = .ok tree ↔
      ∃ kind children, tree = .node kind children ∧ scaffold.elements = [tree] := by
  unfold Scaffold.tree
  constructor
  · intro made
    split at made
    · rename_i kind children single
      obtain rfl := Except.ok.inj made
      exact ⟨kind, children, rfl, single⟩
    · cases made
  · rintro ⟨kind, children, rfl, single⟩
    rw [single]

theorem Tree.ofEvents_eq_ok_iff {tree : Tree} :
    Tree.ofEvents text events = .ok tree ↔
      ∃ result, events.foldlM (Scaffold.apply text) .empty = .ok result ∧
        result.tree = .ok tree := by
  unfold Tree.ofEvents
  cases events.foldlM (Scaffold.apply text) .empty with
  | error defect =>
      refine iff_of_false ?_ ?_
      · intro impossible
        cases impossible
      · rintro ⟨result, impossible, _made⟩
        cases impossible
  | ok result =>
      constructor
      · intro made
        exact ⟨result, rfl, made⟩
      · rintro ⟨other, same, made⟩
        obtain rfl := Except.ok.inj same
        exact made

/-- A run from the start reads the events without the starts of nodes that stay open. -/
theorem Scaffold.symbols_elements {result : Scaffold}
    (run : events.foldlM (Scaffold.apply text) .empty = .ok result) :
    (Forest.symbols result.elements).map some =
      (withoutUnfinished events).map (Event.symbol? text) := by
  have read := symbols_of_run run
  rw [symbols_zero] at read
  exact read

theorem Tree.symbols_of_ofEvents {tree : Tree} (made : Tree.ofEvents text events = .ok tree) :
    (withoutUnfinished events).map (Event.symbol? text) = tree.symbols.map some := by
  obtain ⟨result, run, isTree⟩ := ofEvents_eq_ok_iff.mp made
  obtain ⟨_kind, _children, _isNode, single⟩ := Scaffold.tree_eq_ok_iff.mp isTree
  rw [← Scaffold.symbols_elements run, single, Forest.symbols_singleton]

/-- A stream describes a tree if and only if its run succeeds and what it finishes is one node. -/
theorem Tree.ofEvents_succeeds_iff :
    (∃ tree, Tree.ofEvents text events = .ok tree) ↔
      TokensInside text events ∧ finishedBefore events = 0 ∧
        IsNode (withoutUnfinished events) := by
  have runs := Scaffold.run_succeeds_iff text events .empty
  rw [Scaffold.empty, List.length_nil, Nat.le_zero] at runs
  constructor
  · rintro ⟨tree, made⟩
    obtain ⟨result, run, isTree⟩ := ofEvents_eq_ok_iff.mp made
    obtain ⟨inside, finished⟩ := runs.mp ⟨result, run⟩
    obtain ⟨kind, children, isNode, _single⟩ := Scaffold.tree_eq_ok_iff.mp isTree
    rcases Tree.events_of_symbols tree (Tree.symbols_of_ofEvents made) with
      ⟨other, piece, span, isToken, _events⟩ | complete
    · cases isNode.symm.trans isToken
    · exact ⟨inside, finished, complete⟩
  · rintro ⟨inside, finished, complete⟩
    obtain ⟨result, run⟩ := runs.mpr ⟨inside, finished⟩
    obtain ⟨kind, children, symbols⟩ :=
      complete.exists_node (inside.sublist (withoutUnfinished_sublist events))
    rw [← Scaffold.symbols_elements run, ← Forest.symbols_singleton] at symbols
    have single := Forest.eq_of_symbols_eq
      ((List.map_inj_right fun _ _ => Option.some.inj).mp symbols)
    exact ⟨.node kind children, ofEvents_eq_ok_iff.mpr
      ⟨result, run, Scaffold.tree_eq_ok_iff.mpr ⟨kind, children, rfl, single⟩⟩⟩

end Trees

/-- Trees and events are inverse, for nodes that hold their children while they are open and for a
pile of elements alike. A node is built again from its events over its own text. Over any text a
stream of events describes a tree exactly if its tokens cover whole characters, no front of it
finishes more nodes than it starts, and without the starts that nothing finishes it is one complete
node. The events of the tree are then those that are left, with the same kinds and texts. -/
theorem events_inverse :
    (∀ text events, Pile.ofEvents text events = Tree.ofEvents text events) ∧
    (∀ kind children,
      Tree.ofEvents (Tree.node kind children).text (Tree.node kind children).events =
        .ok (.node kind children)) ∧
    ∀ text events,
      ((∃ tree, Tree.ofEvents text events = .ok tree) ↔
        TokensInside text events ∧
        (∀ front, front <+: events →
          front.countP Event.isFinish ≤ front.countP Event.isStart) ∧
        IsNode (withoutUnfinished events)) ∧
      ∀ tree, Tree.ofEvents text events = .ok tree →
        tree.events.map (Event.symbol? tree.text) = tree.symbols.map some ∧
        (withoutUnfinished events).map (Event.symbol? text) = tree.symbols.map some := by
  refine ⟨Pile.ofEvents_eq, Tree.ofEvents_events, fun text events => ⟨?_, ?_⟩⟩
  · rw [← finishedBefore_eq_zero_iff]
    exact Tree.ofEvents_succeeds_iff
  · intro tree made
    exact ⟨tree.symbols_events, Tree.symbols_of_ofEvents made⟩

/-- A chain before and after which a node starts that nothing finishes. -/
def sampleEvents : List Event :=
  [.start .importDeclaration, .start .accessChain, .token .identifier ⟨0, 5⟩,
    .token .colonColon ⟨5, 7⟩, .finish, .start .error]

theorem events_inverse_sample :
    ∃ tree, Tree.ofEvents "été::" sampleEvents = .ok tree ∧
      tree.events.map (Event.symbol? tree.text) =
        (withoutUnfinished sampleEvents).map (Event.symbol? "été::") := by
  have made : Tree.ofEvents "été::" sampleEvents =
      .ok (.node .accessChain [.token .identifier "été", .token .colonColon "::"]) := rfl
  obtain ⟨own, read⟩ := (events_inverse.2.2 "été::" sampleEvents).2 _ made
  exact ⟨_, made, own.trans read.symm⟩

end Bindery.Syntax
