import Bindery.Syntax.Event
import Bindery.Syntax.Node

set_option autoImplicit false

/-! Neighbours laid side by side: their events, tokens and nodes follow one another, and those of
the right part start where the left part ends. -/

namespace Bindery.Syntax

theorem eventsFrom_append (start : Nat) (left right : Forest) :
    Forest.eventsFrom start (left ++ right) =
      Forest.eventsFrom start left ++
        Forest.eventsFrom (start + Forest.byteSize left) right := by
  induction left generalizing start with
  | nil => rw [List.nil_append, Forest.eventsFrom, List.nil_append, Forest.byteSize, Nat.add_zero]
  | cons tree rest ih =>
      rw [List.cons_append, Forest.eventsFrom, ih, Forest.eventsFrom, Forest.byteSize,
        List.append_assoc, Nat.add_assoc]

theorem tokensFrom_append (start : Nat) (left right : Forest) :
    Forest.tokensFrom start (left ++ right) =
      Forest.tokensFrom start left ++
        Forest.tokensFrom (start + Forest.byteSize left) right := by
  induction left generalizing start with
  | nil => rw [List.nil_append, Forest.tokensFrom, List.nil_append, Forest.byteSize, Nat.add_zero]
  | cons tree rest ih =>
      cases tree with
      | token kind text =>
          rw [List.cons_append, Forest.tokensFrom, ih, Forest.tokensFrom, Forest.byteSize,
            Tree.byteSize, List.cons_append, Nat.add_assoc]
      | node kind children =>
          rw [List.cons_append, Forest.tokensFrom, ih, Forest.tokensFrom, Forest.byteSize,
            Tree.byteSize, Nat.add_assoc]

theorem nodesFrom_append (parent : Kind) (start : Nat) (left right : Forest) :
    Forest.nodesFrom parent start (left ++ right) =
      Forest.nodesFrom parent start left ++
        Forest.nodesFrom parent (start + Forest.byteSize left) right := by
  induction left generalizing start with
  | nil => rw [List.nil_append, Forest.nodesFrom, List.nil_append, Forest.byteSize, Nat.add_zero]
  | cons tree rest ih =>
      cases tree with
      | token kind text =>
          rw [List.cons_append, Forest.nodesFrom, ih, Forest.nodesFrom, Forest.byteSize,
            Tree.byteSize, Nat.add_assoc]
      | node kind children =>
          rw [List.cons_append, Forest.nodesFrom, ih, Forest.nodesFrom, Forest.byteSize,
            Tree.byteSize, List.cons_append, Nat.add_assoc]

theorem postorderFrom_append (start : Nat) (parent : Option Kind) (left right : Forest) :
    Forest.postorderFrom start parent (left ++ right) =
      Forest.postorderFrom start parent left ++
        Forest.postorderFrom (start + Forest.byteSize left) parent right := by
  induction left generalizing start with
  | nil =>
      rw [List.nil_append, Forest.postorderFrom, List.nil_append, Forest.byteSize, Nat.add_zero]
  | cons tree rest ih =>
      rw [List.cons_append, Forest.postorderFrom, ih, Forest.postorderFrom, Forest.byteSize,
        List.append_assoc, Nat.add_assoc]

end Bindery.Syntax
