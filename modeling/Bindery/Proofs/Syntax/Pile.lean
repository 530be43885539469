import Bindery.Syntax.Event

set_option autoImplicit false

/-! Another way to build a tree from events. All finished elements stand in one pile, whatever node
they belong to; of an open node only the height of the pile is kept at which it began. It gives the
same trees and the same defects as nodes that hold their children while they are open. -/

namespace Bindery.Syntax

/-- A tree under construction. -/
structure Pile where
  elements : Forest
  /-- The open nodes, the innermost first, each with the number of elements before it. -/
  openNodes : List (Kind × Nat)

namespace Pile

def empty : Pile := ⟨[], []⟩

def apply (text : String) (pile : Pile) : Event → Except Defect Pile
  | .start kind => .ok { pile with openNodes := (kind, pile.elements.length) :: pile.openNodes }
  | .token kind span =>
      match Text.slice text span with
      | some piece => .ok { pile with elements := pile.elements ++ [.token kind piece] }
      | none => .error (.spanOutsideText span)
  | .finish =>
      match pile.openNodes with
      | [] => .error .finishWithoutStart
      | (kind, height) :: outer =>
          .ok ⟨pile.elements.take height ++ [.node kind (pile.elements.drop height)], outer⟩

/-- The tree, if the pile is one node and nothing else. Nodes that are still open do not matter. -/
def tree (pile : Pile) : Except Defect Tree :=
  match pile.elements with
  | [.node kind children] => .ok (.node kind children)
  | _ => .error .notOneNode

/-- The tree that is piled up from a stream of events over a text. -/
def ofEvents (text : String) (events : List Event) : Except Defect Tree := do
  (← events.foldlM (apply text) empty).tree

end Pile

namespace Scaffold

theorem elements_cons (outside : Forest) (inner : OpenNode) (outer : List OpenNode) :
    elements ⟨outside, inner :: outer⟩ = elements ⟨outside, outer⟩ ++ inner.children := by
  unfold elements
  rw [List.reverse_cons, List.flatMap_append, List.flatMap_singleton, List.append_assoc]

theorem elements_add (scaffold : Scaffold) (tree : Tree) :
    (scaffold.add tree).elements = scaffold.elements ++ [tree] := by
  obtain ⟨outside, openNodes⟩ := scaffold
  cases openNodes with
  | nil => simp [add, elements]
  | cons inner outer =>
      rw [add, elements_cons, elements_cons, List.append_assoc]

/-- The open nodes with the number of elements that stand before each. -/
def heights (outside : Forest) : List OpenNode → List (Kind × Nat)
  | [] => []
  | inner :: outer =>
      (inner.kind, (elements ⟨outside, outer⟩).length) :: heights outside outer

def pile (scaffold : Scaffold) : Pile :=
  ⟨scaffold.elements, heights scaffold.outside scaffold.openNodes⟩

theorem pile_add (scaffold : Scaffold) (tree : Tree) :
    (scaffold.add tree).pile =
      { scaffold.pile with elements := scaffold.elements ++ [tree] } := by
  have sameHeights : heights (scaffold.add tree).outside (scaffold.add tree).openNodes =
      heights scaffold.outside scaffold.openNodes := by
    obtain ⟨outside, openNodes⟩ := scaffold
    cases openNodes <;> rfl
  rw [pile, elements_add, sameHeights]
  rfl

theorem apply_pile (text : String) (scaffold : Scaffold) (event : Event) :
    scaffold.pile.apply text event = (scaffold.apply text event).map pile := by
  cases event with
  | start kind =>
      simp [Pile.apply, apply, Except.map, pile, heights, elements_cons]
  | token kind span =>
      rw [Pile.apply, apply]
      cases Text.slice text span with
      | none => rfl
      | some piece => exact congrArg Except.ok (scaffold.pile_add _).symm
  | finish =>
      obtain ⟨outside, openNodes⟩ := scaffold
      cases openNodes with
      | nil => rfl
      | cons inner outer =>
          dsimp only [apply, Except.map]
          rw [pile_add]
          simp [Pile.apply, pile, heights, elements_cons]

theorem foldlM_pile (text : String) (events : List Event) (scaffold : Scaffold) :
    events.foldlM (Pile.apply text) scaffold.pile =
      (events.foldlM (Scaffold.apply text) scaffold).map pile := by
  induction events generalizing scaffold with
  | nil => rfl
  | cons event rest ih =>
      rw [List.foldlM_cons, List.foldlM_cons, apply_pile]
      cases scaffold.apply text event with
      | error defect => rfl
      | ok next => exact ih next

end Scaffold

theorem Pile.ofEvents_eq (text : String) (events : List Event) :
    ofEvents text events = Tree.ofEvents text events := by
  have run := Scaffold.foldlM_pile text events .empty
  change events.foldlM (apply text) empty = _ at run
  unfold ofEvents Tree.ofEvents
  rw [run]
  cases events.foldlM (Scaffold.apply text) .empty with
  | error defect => rfl
  | ok scaffold => rfl

end Bindery.Syntax
