import Bindery.Program
import Bindery.Syntax.Node

set_option autoImplicit false

/-! The declarations of a tree. Nodes are read from the leaves up, each after the nodes below it.
A type node leaves a fragment behind and an expression node an operand; the declaration around
them takes what it finds. A node that cannot be recorded adds an error, and reading goes on, so
that all errors of a unit are found at once. -/

namespace Bindery

open Syntax

/-- What the nodes read so far have left behind. -/
structure Collection where
  /-- The fragments of the signature or field that is being read. -/
  fragments : List (Spanned Ty)
  /-- The operands of the expression that is being read, the last one first. -/
  operands : List Expr
  /-- The fields of the type definition that is being read. -/
  fields : List Field
  program : Program
  errors : List SemanticError
  deriving Repr

namespace Collection

def empty : Collection := ⟨[], [], [], .empty, []⟩

def report (state : Collection) (error : SemanticError) : Collection :=
  { state with errors := state.errors ++ [error] }

def pushFragment (state : Collection) (type : Ty) (node : Node) : Collection :=
  { state with fragments := state.fragments ++ [⟨type, node.span⟩] }

def pushOperand (state : Collection) (expr : Expr) : Collection :=
  { state with operands := expr :: state.operands }

/-- Records the path of the import. An import without a path is passed over. -/
def readImport (state : Collection) (node : Node) : Collection :=
  match node.child? .accessChain with
  | none => state
  | some chain =>
      let path : Spanned String := ⟨chain.significantText, chain.span⟩
      { state with program := { state.program with imports := state.program.imports ++ [path] } }

/-- The body of a binding: the last operand, if there is an expression under the node at all. -/
def bodyOf? (state : Collection) (node : Node) : Option Expr :=
  if node.nodes.any fun child => child.kind.isExpression then state.operands.head? else none

/-- Records a binding and drops every operand, whether it was used or not. -/
def readBinding (state : Collection) (node : Node) : Collection :=
  let rest := { state with operands := [] }
  match state.bodyOf? node with
  | none =>
      match node.identifier? with
      | some name => rest.report (.bindingWithoutBody name.value node.span)
      | none => rest.report (.bindingWithoutName node.span)
  | some body =>
      match BindingDecl.ofHead node.identifiers body node.isExported node.span with
      | .ok decl =>
          { rest with program := { rest.program with bindings := rest.program.bindings ++ [decl] } }
      | .error error => rest.report error

/-- Records a signature and takes every fragment. -/
def readSignature (state : Collection) (node : Node) : Collection :=
  let rest := { state with fragments := [] }
  match node.identifier? with
  | none => rest.report (.bindingWithoutName node.span)
  | some name =>
      let decl : SignatureDecl := ⟨name, state.fragments⟩
      { rest with program := { rest.program with signatures := rest.program.signatures ++ [decl] } }

/-- Keeps a field for the type definition around it, and takes every fragment. A field without a
name or a type is passed over. -/
def readField (state : Collection) (node : Node) : Collection :=
  let rest := { state with fragments := [] }
  match node.identifier?, state.fragments with
  | some name, [type] => { rest with fields := rest.fields ++ [⟨name, type⟩] }
  | some name, _ :: _ :: _ => rest.report (.functionField name.value node.span)
  | some _, [] => rest
  | none, _ => rest

/-- Records a type definition and takes every field. A definition without a name is passed over. -/
def readType (state : Collection) (node : Node) : Collection :=
  let rest := { state with fields := [] }
  match node.identifier? with
  | none => rest
  | some name =>
      let decl : TypeDecl := ⟨name, state.fields, node.isExported⟩
      { rest with program := { rest.program with types := rest.program.types ++ [decl] } }

/-- The text of the first token of a kind, or nothing. -/
def literalText (node : Node) (kind : Kind) : String :=
  ((node.token? kind).map Token.text).getD ""

/-- An integer. A literal that cannot be read still leaves an operand, so that the declaration
around it is not said to have no body. -/
def readInteger (state : Collection) (node : Node) : Collection :=
  let text := literalText node .integer
  match Number.readInteger? text with
  | some value => state.pushOperand (.integer value node.span)
  | none =>
      (state.report (.invalidLiteral .integer text node.span)).pushOperand (.integer 0 node.span)

/-- A float, with the same rule for one that cannot be read. -/
def readFloat (state : Collection) (node : Node) : Collection :=
  let text := literalText node .float
  match Number.Binary64.read? text with
  | some value => state.pushOperand (.float value node.span)
  | none =>
      (state.report (.invalidLiteral .float text node.span)).pushOperand (.float .zero node.span)

/-- The text between the quotes; a text that is not between quotes stays as it is. -/
def unquote (text : String) : String :=
  match text.toList with
  | '"' :: rest => if rest.getLast? = some '"' then String.ofList rest.dropLast else text
  | _ => text

/-- The operator between two operands: plus is looked for first, then minus, star and slash. -/
def operatorOf? (node : Node) : Option Operator :=
  let kinds : List Kind := [.plus, .minus, .star, .slash]
  (kinds.findSome? node.token?).bind fun token => Operator.ofSymbol? token.text

/-- Combines the last two operands. If one of them or the operator is missing, the operands are
dropped and nothing takes their place. -/
def readBinary (state : Collection) (node : Node) : Collection :=
  let rest := { state with operands := state.operands.drop 2 }
  match state.operands, operatorOf? node with
  | right :: left :: _, some operator => rest.pushOperand (.combine left operator right)
  | _, _ => rest

/-- Makes an argument of the last operand. -/
def readArgument (state : Collection) (node : Node) : Collection :=
  match state.operands with
  | [] => state
  | value :: rest =>
      let label := node.identifier?.map Spanned.value
      { state with operands := .argument label value node.span :: rest }

/-- The number of arguments directly under a call. -/
def argumentCount (node : Node) : Nat :=
  (node.nodes.filter fun child => child.kind = .argument).length

/-- Makes a call of the last operands: the arguments and, before them, the callee. If there are too
few, they stay. -/
def readCall (state : Collection) (node : Node) : Collection :=
  let count := argumentCount node
  match state.operands.drop count with
  | [] => state
  | callee :: rest =>
      let arguments := (state.operands.take count).reverse
      { state with operands := .apply callee arguments node.span :: rest }

/-- Reads a node after the nodes below it. A program, a path, a visibility and a pair of brackets
have nothing of their own to record, nor has a node of a kind that only tokens should have. -/
def read (state : Collection) (node : Node) : Collection :=
  match node.kind with
  | .importDeclaration => state.readImport node
  | .binding => state.readBinding node
  | .signature => state.readSignature node
  | .typeDefinition => state.readType node
  | .typeField => state.readField node
  | .namedType =>
      match node.token? .identifier with
      | some name => state.pushFragment (.ofName name.text) node
      | none => state
  | .voidType => state.pushFragment .void node
  | .variableType =>
      match node.token? .identifier with
      | some name => state.pushFragment (.variable name.text) node
      | none => state
  | .intLiteral => state.readInteger node
  | .floatLiteral => state.readFloat node
  | .stringLiteral =>
      state.pushOperand (.string (unquote (literalText node .string)) node.span)
  | .boolLiteral =>
      state.pushOperand (.boolean (literalText node .boolean = "true") node.span)
  | .identExpr =>
      match node.token? .identifier with
      | some name => state.pushOperand (.identifier name.text node.span)
      | none => state
  | .binaryExpr => state.readBinary node
  | .argument => state.readArgument node
  | .call => state.readCall node
  | _ => state

def readAll (state : Collection) (nodes : List Node) : Collection := nodes.foldl read state

/-- Reading goes on from what the nodes before have left. -/
theorem readAll_append (state : Collection) (before after : List Node) :
    state.readAll (before ++ after) = (state.readAll before).readAll after :=
  List.foldl_append

/-- The program, unless an error was found. -/
def result (state : Collection) : Except (List SemanticError) Program :=
  if state.errors.isEmpty then .ok state.program else .error state.errors

end Collection

/-- The program that a tree declares, or every error found in it. -/
def Program.ofTree (tree : Tree) : Except (List SemanticError) Program :=
  (Collection.empty.readAll tree.postorder).result

end Bindery
