import Bindery.Span
import Bindery.Syntax.Tree

set_option autoImplicit false

/-! Tokens and nodes of a tree at their places, what can be asked of a node, and the two orders in
which a tree is read: every element before its children, and every node after its descendants. -/

namespace Bindery.Syntax

/-- A token and the offset where it starts. -/
structure Token where
  kind : Kind
  text : String
  start : Nat
  deriving DecidableEq, Repr

namespace Token

def span (token : Token) : Span := ⟨token.start, token.start + token.text.utf8ByteSize⟩

def spelling (token : Token) : Spanned String := ⟨token.text, token.span⟩

end Token

/-- A node, the offset where it starts and the kind of the node around it. -/
structure Node where
  kind : Kind
  children : Forest
  start : Nat
  parent : Option Kind
  deriving Repr

namespace Forest

/-- The tokens among neighbours of which the first starts at `start`. -/
def tokensFrom (start : Nat) : Forest → List Token
  | [] => []
  | .token kind text :: rest => ⟨kind, text, start⟩ :: tokensFrom (start + text.utf8ByteSize) rest
  | .node _ children :: rest => tokensFrom (start + byteSize children) rest

/-- The nodes among the children of a node of kind `parent`, the first of which starts at
`start`. -/
def nodesFrom (parent : Kind) (start : Nat) : Forest → List Node
  | [] => []
  | .token _ text :: rest => nodesFrom parent (start + text.utf8ByteSize) rest
  | .node kind children :: rest =>
      ⟨kind, children, start, some parent⟩ :: nodesFrom parent (start + byteSize children) rest

end Forest

namespace Node

def tokens (node : Node) : List Token := Forest.tokensFrom node.start node.children

def nodes (node : Node) : List Node := Forest.nodesFrom node.kind node.start node.children

def text (node : Node) : String := Forest.text node.children

def stop (node : Node) : Nat := node.start + Forest.byteSize node.children

/-- The place of the node without the blanks and comments that it begins with. A node with nothing
else keeps them. -/
def span (node : Node) : Span :=
  ⟨(Forest.significantStart? node.start node.children).getD node.start, node.stop⟩

def significantText (node : Node) : String := Forest.significantText node.children

def child? (node : Node) (kind : Kind) : Option Node :=
  node.nodes.find? fun child => child.kind = kind

def tokensOf (node : Node) (kind : Kind) : List Token :=
  node.tokens.filter fun token => token.kind = kind

def token? (node : Node) (kind : Kind) : Option Token := (node.tokensOf kind).head?

/-- The identifiers of a declaration's head; those of expressions and types stand deeper. -/
def identifiers (node : Node) : List (Spanned String) :=
  (node.tokensOf .identifier).map Token.spelling

def identifier? (node : Node) : Option (Spanned String) := node.identifiers.head?

/-- Whether the first visibility under the node holds the word that exports. -/
def isExported (node : Node) : Bool :=
  match node.child? .visibility with
  | some visibility => (visibility.token? .pubWord).isSome
  | none => false

end Node

/-- An element of a tree with its depth, its place and the kind of the node around it. -/
structure Element where
  depth : Nat
  start : Nat
  parent : Option Kind
  tree : Tree
  deriving Repr

namespace Element

def span (element : Element) : Span := ⟨element.start, element.start + element.tree.byteSize⟩

def node? (element : Element) : Option Node :=
  match element.tree with
  | .token _ _ => none
  | .node kind children => some ⟨kind, children, element.start, element.parent⟩

end Element

mutual

/-- Every element, each before its children. -/
def Tree.preorderFrom (depth start : Nat) (parent : Option Kind) : Tree → List Element
  | .token kind text => [⟨depth, start, parent, .token kind text⟩]
  | .node kind children =>
      ⟨depth, start, parent, .node kind children⟩ ::
        Forest.preorderFrom (depth + 1) start (some kind) children

def Forest.preorderFrom (depth start : Nat) (parent : Option Kind) : Forest → List Element
  | [] => []
  | tree :: rest =>
      tree.preorderFrom depth start parent ++
        Forest.preorderFrom depth (start + tree.byteSize) parent rest

end

mutual

/-- Every node, each after the nodes below it. -/
def Tree.postorderFrom (start : Nat) (parent : Option Kind) : Tree → List Node
  | .token _ _ => []
  | .node kind children =>
      Forest.postorderFrom start (some kind) children ++ [⟨kind, children, start, parent⟩]

def Forest.postorderFrom (start : Nat) (parent : Option Kind) : Forest → List Node
  | [] => []
  | tree :: rest =>
      tree.postorderFrom start parent ++
        Forest.postorderFrom (start + tree.byteSize) parent rest

end

namespace Tree

def preorder (tree : Tree) : List Element := tree.preorderFrom 0 0 none

def postorder (tree : Tree) : List Node := tree.postorderFrom 0 none

def nodes (tree : Tree) : List Node := tree.preorder.filterMap Element.node?

end Tree

end Bindery.Syntax
