import Bindery.Source
import Bindery.Syntax.Event
import Bindery.Text.Truth

set_option autoImplicit false

/-! Writing a source: its text and the events of its tree grow side by side, so that every token
covers its own text. -/

namespace Bindery.Source

open Syntax

/-- What has been written so far. -/
structure Draft where
  text : String
  events : List Event
  deriving Repr

namespace Draft

def empty : Draft := ⟨"", []⟩

/-- Appends a token. -/
def raw (kind : Kind) (text : String) (draft : Draft) : Draft :=
  let start := draft.text.utf8ByteSize
  ⟨draft.text ++ text, draft.events ++ [.token kind ⟨start, start + text.utf8ByteSize⟩]⟩

/-- Whether a word may stand right after the text: at its start and after a line break, a blank, an
opening bracket or a quote. -/
def isOpenEnded (text : String) : Bool :=
  match text.toList.getLast? with
  | none => true
  | some c => c = '\n' || c = ' ' || c = '(' || c = '\''

/-- Appends a token, with a blank before it unless the text ends where a word may stand. -/
def word (kind : Kind) (text : String) (draft : Draft) : Draft :=
  (if isOpenEnded draft.text then draft else draft.raw .whitespace " ").raw kind text

/-- Appends a node with what `body` writes in it. -/
def node (kind : Kind) (body : Draft → Draft) (draft : Draft) : Draft :=
  let inner := body { draft with events := draft.events ++ [.start kind] }
  { inner with events := inner.events ++ [.finish] }

/-- The tree that has been written, over its text. -/
def tree (draft : Draft) : Except Defect Tree := Tree.ofEvents draft.text draft.events

end Draft

/-- The parts of a path between its double colons. -/
def splitPath : List Char → List (List Char)
  | [] => [[]]
  | ':' :: ':' :: rest => [] :: splitPath rest
  | c :: rest =>
      match splitPath rest with
      | [] => [[c]]
      | part :: parts => (c :: part) :: parts

/-- The parts of a path with the colons between them. -/
def writePath : List (List Char) → Draft → Draft
  | [], draft => draft
  | part :: parts, draft =>
      parts.foldl
        (fun draft next => (draft.raw .colonColon "::").raw .identifier (String.ofList next))
        (draft.word .identifier (String.ofList part))

def TypeExpr.isArrow : TypeExpr → Bool
  | .arrow _ => true
  | _ => false

mutual

def TypeExpr.write : TypeExpr → Draft → Draft
  | .named name => Draft.node .namedType (Draft.word .identifier name)
  | .void => Draft.node .voidType fun draft => (draft.word .leftParen "(").raw .rightParen ")"
  | .variable name =>
      Draft.node .variableType fun draft => (draft.word .quote "'").raw .identifier name
  | .arrow types => Draft.node .arrowType fun draft => TypeExpr.writeAll types true draft

/-- Types with arrows between them. An arrow type among them stands in brackets. -/
def TypeExpr.writeAll : List TypeExpr → Bool → Draft → Draft
  | [], _, draft => draft
  | type :: rest, isFirst, draft =>
      let draft := if isFirst then draft else draft.word .arrow "->"
      let draft :=
        if type.isArrow then (type.write (draft.word .leftParen "(")).raw .rightParen ")"
        else type.write draft
      TypeExpr.writeAll rest false draft

end

/-- The kind of token that a character is between two operands. -/
def operatorKind (symbol : Char) : Kind :=
  if symbol = '+' then .plus
  else if symbol = '-' then .minus
  else if symbol = '*' then .star
  else if symbol = '/' then .slash
  else .error

mutual

def Term.write : Term → Draft → Draft
  | .integer text => Draft.node .intLiteral (Draft.word .integer text)
  | .float text => Draft.node .floatLiteral (Draft.word .float text)
  | .string value => Draft.node .stringLiteral (Draft.word .string ("\"" ++ value ++ "\""))
  | .boolean value => Draft.node .boolLiteral (Draft.word .boolean (Text.truth value))
  | .identifier name => Draft.node .identExpr (Draft.word .identifier name)
  | .binary left operator right =>
      Draft.node .binaryExpr fun draft =>
        right.write ((left.write draft).word (operatorKind operator) operator.toString)
  | .paren inner =>
      Draft.node .parenExpr fun draft =>
        (inner.write (draft.word .leftParen "(")).raw .rightParen ")"
  | .call callee arguments =>
      Draft.node .call fun draft =>
        (Term.writeAll arguments true ((callee.write draft).raw .leftParen "(")).raw .rightParen ")"

/-- Arguments with commas between them, each in a node with its label. -/
def Term.writeAll : List (Option String × Term) → Bool → Draft → Draft
  | [], _, draft => draft
  | (label, value) :: rest, isFirst, draft =>
      let draft := if isFirst then draft else draft.raw .comma ","
      let draft :=
        draft.node .argument fun draft =>
          match label with
          | some name => value.write ((draft.word .identifier name).raw .colon ":")
          | none => value.write draft
      Term.writeAll rest false draft

end

def writeVisibility (exported : Bool) (draft : Draft) : Draft :=
  if exported then draft.node .visibility (Draft.word .pubWord "pub") else draft

/-- Fields with commas between them. -/
def writeFields : List (String × TypeExpr) → Bool → Draft → Draft
  | [], _, draft => draft
  | (name, type) :: rest, isFirst, draft =>
      let draft := if isFirst then draft else draft.raw .comma ","
      let draft :=
        draft.node .typeField fun draft => type.write ((draft.word .identifier name).raw .colon ":")
      writeFields rest false draft

def Decl.write : Decl → Draft → Draft
  | .bringIn path =>
      Draft.node .importDeclaration fun draft =>
        (draft.word .importWord "import").node .accessChain (writePath (splitPath path.toList))
  | .binding exported identifiers body =>
      Draft.node .binding fun draft =>
        let draft := identifiers.foldl (fun draft name => draft.word .identifier name)
          (writeVisibility exported draft)
        let draft := draft.word .equals "="
        match body with
        | some term => term.write draft
        | none => draft
  | .signature name type =>
      Draft.node .signature fun draft =>
        type.write ((draft.word .identifier name).word .colonColon "::")
  | .typeDefinition exported name fields =>
      Draft.node .typeDefinition fun draft =>
        let draft := (writeVisibility exported draft).word .typeWord "type"
        let draft := (draft.word .identifier name).word .leftParen "("
        (writeFields fields true draft).raw .rightParen ")"

/-- Declarations, each on a line of its own. -/
def writeDecls : List Decl → Bool → Draft → Draft
  | [], _, draft => draft
  | decl :: rest, isFirst, draft =>
      let draft := if isFirst then draft else draft.raw .whitespace "\n"
      writeDecls rest false (decl.write draft)

def draft (decls : List Decl) : Draft := Draft.empty.node .program (writeDecls decls true)

def render (decls : List Decl) : Except Defect (String × Tree) :=
  (draft decls).tree.map fun tree => ((draft decls).text, tree)

end Bindery.Source
