import Bindery.Syntax.Tree
import Bindery.Text.Slice

set_option autoImplicit false

/-! Streams of events that describe a tree over a text: a node starts, a token covers a span, a node
finishes. A tree has such a stream, and a stream that is well formed has a tree. -/

namespace Bindery.Syntax

inductive Event where
  | start (kind : Kind)
  | token (kind : Kind) (span : Span)
  | finish
  deriving DecidableEq, Repr

mutual

/-- The events of a tree that starts at `start`. -/
def Tree.eventsFrom (start : Nat) : Tree → List Event
  | .token kind text => [.token kind ⟨start, start + text.utf8ByteSize⟩]
  | .node kind children => .start kind :: Forest.eventsFrom start children ++ [.finish]

def Forest.eventsFrom (start : Nat) : Forest → List Event
  | [] => []
  | tree :: rest => tree.eventsFrom start ++ Forest.eventsFrom (start + tree.byteSize) rest

end

def Tree.events (tree : Tree) : List Event := tree.eventsFrom 0

/-- Why a stream describes no tree. -/
inductive Defect where
  /-- A node finishes and none is open. -/
  | finishWithoutStart
  /-- A token covers no whole characters of the text. -/
  | spanOutsideText (span : Span)
  /-- What remains is not exactly one node. -/
  | notOneNode
  deriving DecidableEq, Repr

/-- A node that has started and what stands in it so far. -/
structure OpenNode where
  kind : Kind
  children : Forest
  deriving Repr

/-- A tree under construction. -/
structure Scaffold where
  /-- What stands outside every open node. -/
  outside : Forest
  /-- The open nodes, the innermost first. -/
  openNodes : List OpenNode
  deriving Repr

namespace Scaffold

def empty : Scaffold := ⟨[], []⟩

/-- Puts a finished element at the end of the innermost open node. -/
def add (scaffold : Scaffold) (tree : Tree) : Scaffold :=
  match scaffold.openNodes with
  | [] => { scaffold with outside := scaffold.outside ++ [tree] }
  | inner :: outer =>
      { scaffold with openNodes := { inner with children := inner.children ++ [tree] } :: outer }

def apply (text : String) (scaffold : Scaffold) : Event → Except Defect Scaffold
  | .start kind => .ok { scaffold with openNodes := ⟨kind, []⟩ :: scaffold.openNodes }
  | .token kind span =>
      match Text.slice text span with
      | some piece => .ok (scaffold.add (.token kind piece))
      | none => .error (.spanOutsideText span)
  | .finish =>
      match scaffold.openNodes with
      | [] => .error .finishWithoutStart
      | inner :: outer =>
          .ok ({ scaffold with openNodes := outer }.add (.node inner.kind inner.children))

/-- Everything finished so far. A node that is still open is passed over, and what stands in it
counts as if the node had never started. -/
def elements (scaffold : Scaffold) : Forest :=
  scaffold.outside ++ scaffold.openNodes.reverse.flatMap OpenNode.children

/-- The tree, once nothing is left but one node. -/
def tree (scaffold : Scaffold) : Except Defect Tree :=
  match scaffold.elements with
  | [.node kind children] => .ok (.node kind children)
  | _ => .error .notOneNode

end Scaffold

/-- The tree that a stream of events describes over a text. -/
def Tree.ofEvents (text : String) (events : List Event) : Except Defect Tree := do
  (← events.foldlM (Scaffold.apply text) .empty).tree

end Bindery.Syntax
