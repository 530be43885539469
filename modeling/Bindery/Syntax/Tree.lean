import Bindery.Syntax.Kind

set_option autoImplicit false

/-! Lossless syntax trees. A tree holds every character of its text in its tokens, so offsets are
not stored: an element starts after the bytes of all tokens before it. -/

namespace Bindery.Syntax

/-- Tokens may be empty, nodes may have no children, and both are kept. -/
inductive Tree where
  | token (kind : Kind) (text : String)
  | node (kind : Kind) (children : List Tree)
  deriving Repr

/-- The children of a node, or any other run of neighbours. -/
abbrev Forest := List Tree

def Tree.kind : Tree → Kind
  | .token kind _ => kind
  | .node kind _ => kind

mutual

def Tree.text : Tree → String
  | .token _ text => text
  | .node _ children => Forest.text children

def Forest.text : Forest → String
  | [] => ""
  | tree :: rest => tree.text ++ Forest.text rest

end

mutual

def Tree.byteSize : Tree → Nat
  | .token _ text => text.utf8ByteSize
  | .node _ children => Forest.byteSize children

def Forest.byteSize : Forest → Nat
  | [] => 0
  | tree :: rest => tree.byteSize + Forest.byteSize rest

end

mutual

/-- Sizes count the bytes of the text. -/
theorem Tree.utf8ByteSize_text : (tree : Tree) → tree.text.utf8ByteSize = tree.byteSize
  | .token _ _ => rfl
  | .node _ children => Forest.utf8ByteSize_text children

theorem Forest.utf8ByteSize_text :
    (forest : Forest) → (Forest.text forest).utf8ByteSize = Forest.byteSize forest
  | [] => rfl
  | tree :: rest => by
      rw [Forest.text, Forest.byteSize, String.utf8ByteSize_append, tree.utf8ByteSize_text,
        Forest.utf8ByteSize_text rest]

end

theorem Forest.text_append (left right : Forest) :
    Forest.text (left ++ right) = Forest.text left ++ Forest.text right := by
  induction left with
  | nil => rw [List.nil_append, Forest.text, String.empty_append]
  | cons tree rest ih => rw [List.cons_append, Forest.text, Forest.text, ih, String.append_assoc]

mutual

/-- The text of the tokens that carry meaning, in order. -/
def Tree.significantText : Tree → String
  | .token kind text => if kind.isTrivia then "" else text
  | .node _ children => Forest.significantText children

def Forest.significantText : Forest → String
  | [] => ""
  | tree :: rest => tree.significantText ++ Forest.significantText rest

end

mutual

/-- Where the first token that carries meaning starts, for a tree that starts at `start`. -/
def Tree.significantStart? (start : Nat) : Tree → Option Nat
  | .token kind _ => if kind.isTrivia then none else some start
  | .node _ children => Forest.significantStart? start children

def Forest.significantStart? (start : Nat) : Forest → Option Nat
  | [] => none
  | tree :: rest =>
      match tree.significantStart? start with
      | some found => some found
      | none => Forest.significantStart? (start + tree.byteSize) rest

end

end Bindery.Syntax
