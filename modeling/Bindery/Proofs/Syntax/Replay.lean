import Bindery.Syntax.Event

set_option autoImplicit false

/-! A tree can be built again from its events over its own text. The text may go on before and after
the tree, and other nodes may be open around it: that is what carries the induction. -/

namespace Bindery.Syntax

/-- Puts finished elements, one after the other, at the end of the innermost open node. -/
def Scaffold.addAll (scaffold : Scaffold) (forest : Forest) : Scaffold :=
  forest.foldl Scaffold.add scaffold

theorem Scaffold.addAll_cons (scaffold : Scaffold) (tree : Tree) (rest : Forest) :
    scaffold.addAll (tree :: rest) = (scaffold.add tree).addAll rest := rfl

/-- Inside an open node the elements become its last children. -/
theorem Scaffold.addAll_inside (outside : Forest) (kind : Kind) (children forest : Forest)
    (outer : List OpenNode) :
    Scaffold.addAll ⟨outside, ⟨kind, children⟩ :: outer⟩ forest =
      ⟨outside, ⟨kind, children ++ forest⟩ :: outer⟩ := by
  induction forest generalizing children with
  | nil =>
      rw [List.append_nil]
      rfl
  | cons tree rest ih =>
      rw [addAll_cons]
      change Scaffold.addAll ⟨outside, ⟨kind, children ++ [tree]⟩ :: outer⟩ rest = _
      rw [ih, List.append_assoc]
      rfl

mutual

/-- The events of a tree add the tree, and nothing else changes. -/
theorem Tree.replay (before after : String) (scaffold : Scaffold) : (tree : Tree) →
    (tree.eventsFrom before.utf8ByteSize).foldlM
      (Scaffold.apply (before ++ tree.text ++ after)) scaffold = .ok (scaffold.add tree)
  | .token kind text => by
      rw [Tree.eventsFrom, Tree.text, List.foldlM_cons, Scaffold.apply, Text.slice_append]
      rfl
  | .node kind children => by
      have inner := Forest.replay before after
        { scaffold with openNodes := ⟨kind, []⟩ :: scaffold.openNodes } children
      rw [Scaffold.addAll_inside, List.nil_append] at inner
      rw [Tree.eventsFrom, Tree.text, List.cons_append, List.foldlM_cons, Scaffold.apply]
      change List.foldlM _ _ _ = _
      rw [List.foldlM_append, inner]
      rfl

theorem Forest.replay (before after : String) (scaffold : Scaffold) : (forest : Forest) →
    (Forest.eventsFrom before.utf8ByteSize forest).foldlM
      (Scaffold.apply (before ++ Forest.text forest ++ after)) scaffold =
        .ok (scaffold.addAll forest)
  | [] => rfl
  | tree :: rest => by
      have first := Tree.replay before (Forest.text rest ++ after) scaffold tree
      have others := Forest.replay (before ++ tree.text) after (scaffold.add tree) rest
      rw [String.utf8ByteSize_append, tree.utf8ByteSize_text] at others
      rw [← String.append_assoc] at first
      rw [Forest.eventsFrom, Forest.text, List.foldlM_append, Scaffold.addAll_cons,
        ← String.append_assoc, first]
      exact others

end

/-- The events of a node over its own text describe that node. -/
theorem Tree.ofEvents_events (kind : Kind) (children : Forest) :
    Tree.ofEvents (Tree.node kind children).text (Tree.node kind children).events =
      .ok (.node kind children) := by
  have replayed := Tree.replay "" "" Scaffold.empty (.node kind children)
  rw [String.empty_append, String.append_empty] at replayed
  unfold Tree.ofEvents Tree.events
  change (List.foldlM _ _ (Tree.eventsFrom "".utf8ByteSize _) >>= Scaffold.tree) = _
  rw [replayed]
  rfl

end Bindery.Syntax
