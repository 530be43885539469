import Bindery.Proofs.Source.Layout
import Bindery.Proofs.Syntax.Replay

set_option autoImplicit false

/-! The tree of every written type, expression and declaration: its kind and what stands in it. A
source has the tree of its declarations, over a text that the tree holds itself. -/

namespace Bindery.Source

open Syntax

/-! ### Types -/

def TypeExpr.kind : TypeExpr → Kind
  | .named _ => .namedType
  | .void => .voidType
  | .variable _ => .variableType
  | .arrow _ => .arrowType

/-- What stands between a member of a list and the one before it. -/
def separator (isFirst : Bool) (between : Layout) : Layout := if isFirst then .nothing else between

/-- The brackets around an arrow type that stands between arrows. -/
def openBracket (isArrow : Bool) : Layout := if isArrow then .word .leftParen "(" else .nothing

def closeBracket (isArrow : Bool) : Layout := if isArrow then .raw .rightParen ")" else .nothing

mutual

def TypeExpr.content : TypeExpr → Layout
  | .named name => .word .identifier name
  | .void => (Layout.word .leftParen "(").next (.raw .rightParen ")")
  | .variable name => (Layout.word .quote "'").next (.raw .identifier name)
  | .arrow types => TypeExpr.contentAll types true

def TypeExpr.contentAll : List TypeExpr → Bool → Layout
  | [], _ => .nothing
  | type :: rest, isFirst =>
      (separator isFirst (.word .arrow "->")).next
        ((openBracket type.isArrow).next
          ((Layout.node type.kind type.content).next
            ((closeBracket type.isArrow).next (TypeExpr.contentAll rest false))))

end

def TypeExpr.layout (type : TypeExpr) : Layout := .node type.kind type.content

theorem separator_eq_lay (step : Draft → Draft) (between : Layout)
    (same : ∀ draft : Draft, step draft = draft.lay between) (isFirst : Bool) (draft : Draft) :
    (if isFirst then draft else step draft) = draft.lay (separator isFirst between) := by
  cases isFirst with
  | true => exact (Draft.lay_nothing draft).symm
  | false => exact same draft

mutual

theorem TypeExpr.write_eq_lay (draft : Draft) : (type : TypeExpr) →
    type.write draft = draft.lay type.layout
  | .named name => Draft.node_eq_lay _ _ _ (Draft.word_eq_lay .identifier name) draft
  | .void => by
      rw [TypeExpr.write]
      refine Draft.node_eq_lay _ _ _ (fun inner => ?_) draft
      rw [Draft.word_eq_lay, Draft.raw_eq_lay, ← Draft.lay_next]
      rfl
  | .variable name => by
      rw [TypeExpr.write]
      refine Draft.node_eq_lay _ _ _ (fun inner => ?_) draft
      rw [Draft.word_eq_lay, Draft.raw_eq_lay, ← Draft.lay_next]
      rfl
  | .arrow types =>
      Draft.node_eq_lay _ _ _ (fun inner => TypeExpr.writeAll_eq_lay true inner types) draft

theorem TypeExpr.writeAll_eq_lay (isFirst : Bool) (draft : Draft) : (types : List TypeExpr) →
    TypeExpr.writeAll types isFirst draft = draft.lay (TypeExpr.contentAll types isFirst)
  | [] => (Draft.lay_nothing draft).symm
  | type :: rest => by
      have written (inner : Draft) :
          (if type.isArrow then
            (type.write (inner.word .leftParen "(")).raw .rightParen ")"
          else type.write inner) =
            inner.lay ((openBracket type.isArrow).next
              (type.layout.next (closeBracket type.isArrow))) := by
        rw [Draft.lay_next, Draft.lay_next]
        cases type.isArrow with
        | true =>
            rw [if_pos rfl, TypeExpr.write_eq_lay _ type, Draft.word_eq_lay, Draft.raw_eq_lay]
            rfl
        | false =>
            rw [if_neg Bool.false_ne_true, TypeExpr.write_eq_lay _ type]
            exact (Draft.lay_nothing _).symm.trans
              (congrArg (fun start : Draft => (start.lay type.layout).lay .nothing)
                (Draft.lay_nothing inner).symm)
      rw [TypeExpr.writeAll, separator_eq_lay _ (.word .arrow "->") (Draft.word_eq_lay _ _),
        written, TypeExpr.writeAll_eq_lay false _ rest, TypeExpr.contentAll]
      simp only [Draft.lay_next, TypeExpr.layout]

end

/-! ### Expressions -/

def Term.kind : Term → Kind
  | .integer _ => .intLiteral
  | .float _ => .floatLiteral
  | .string _ => .stringLiteral
  | .boolean _ => .boolLiteral
  | .identifier _ => .identExpr
  | .binary .. => .binaryExpr
  | .paren _ => .parenExpr
  | .call .. => .call

def labelLayout : Option String → Layout
  | some name => (Layout.word .identifier name).next (.raw .colon ":")
  | none => .nothing

mutual

def Term.content : Term → Layout
  | .integer text => .word .integer text
  | .float text => .word .float text
  | .string value => .word .string ("\"" ++ value ++ "\"")
  | .boolean value => .word .boolean (Text.truth value)
  | .identifier name => .word .identifier name
  | .binary left operator right =>
      (Layout.node left.kind left.content).next
        ((Layout.word (operatorKind operator) operator.toString).next
          (.node right.kind right.content))
  | .paren inner =>
      (Layout.word .leftParen "(").next
        ((Layout.node inner.kind inner.content).next (.raw .rightParen ")"))
  | .call callee arguments =>
      (Layout.node callee.kind callee.content).next
        ((Layout.raw .leftParen "(").next
          ((Term.contentAll arguments true).next (.raw .rightParen ")")))

def Term.contentAll : List (Option String × Term) → Bool → Layout
  | [], _ => .nothing
  | (label, value) :: rest, isFirst =>
      (separator isFirst (.raw .comma ",")).next
        ((Layout.node .argument ((labelLayout label).next (.node value.kind value.content))).next
          (Term.contentAll rest false))

end

def Term.layout (term : Term) : Layout := .node term.kind term.content

theorem Term.kind_isExpression (term : Term) : term.kind.isExpression = true := by
  cases term <;> rfl

mutual

theorem Term.write_eq_lay (draft : Draft) : (term : Term) →
    term.write draft = draft.lay term.layout
  | .integer text => Draft.node_eq_lay _ _ _ (Draft.word_eq_lay .integer text) draft
  | .float text => Draft.node_eq_lay _ _ _ (Draft.word_eq_lay .float text) draft
  | .string _ => Draft.node_eq_lay _ _ _ (Draft.word_eq_lay .string _) draft
  | .boolean _ => Draft.node_eq_lay _ _ _ (Draft.word_eq_lay .boolean _) draft
  | .identifier name => Draft.node_eq_lay _ _ _ (Draft.word_eq_lay .identifier name) draft
  | .binary left operator right => by
      rw [Term.write]
      refine Draft.node_eq_lay _ _ _ (fun inner => ?_) draft
      rw [Term.write_eq_lay inner left, Draft.word_eq_lay, Term.write_eq_lay _ right,
        ← Draft.lay_next, ← Draft.lay_next]
      rfl
  | .paren content => by
      rw [Term.write]
      refine Draft.node_eq_lay _ _ _ (fun inner => ?_) draft
      rw [Draft.word_eq_lay, Term.write_eq_lay _ content, Draft.raw_eq_lay, ← Draft.lay_next,
        ← Draft.lay_next]
      rfl
  | .call callee arguments => by
      rw [Term.write]
      refine Draft.node_eq_lay _ _ _ (fun inner => ?_) draft
      rw [Term.write_eq_lay inner callee, Draft.raw_eq_lay,
        Term.writeAll_eq_lay true _ arguments, Draft.raw_eq_lay, ← Draft.lay_next,
        ← Draft.lay_next, ← Draft.lay_next]
      rfl

theorem Term.writeAll_eq_lay (isFirst : Bool) (draft : Draft) :
    (arguments : List (Option String × Term)) →
      Term.writeAll arguments isFirst draft = draft.lay (Term.contentAll arguments isFirst)
  | [] => (Draft.lay_nothing draft).symm
  | (label, value) :: rest => by
      have written (inner : Draft) :
          (match label with
            | some name => value.write ((inner.word .identifier name).raw .colon ":")
            | none => value.write inner) = inner.lay ((labelLayout label).next value.layout) := by
        rw [Draft.lay_next]
        cases label with
        | some name =>
            rw [labelLayout, Draft.lay_next, ← Draft.word_eq_lay, ← Draft.raw_eq_lay]
            exact Term.write_eq_lay _ value
        | none =>
            rw [labelLayout, Draft.lay_nothing]
            exact Term.write_eq_lay inner value
      rw [Term.writeAll, separator_eq_lay _ (.raw .comma ",") (Draft.raw_eq_lay _ _),
        Term.writeAll_eq_lay false _ rest]
      refine (congrArg (Draft.lay · _) (Draft.node_eq_lay _ _ _ written _)).trans ?_
      rw [← Draft.lay_next, ← Draft.lay_next]
      rfl

end

/-! ### Declarations -/

def pathLayout : List (List Char) → Layout
  | [] => .nothing
  | part :: parts =>
      (Layout.word .identifier (String.ofList part)).next <| .all <| parts.map fun other =>
        (Layout.raw .colonColon "::").next (.raw .identifier (String.ofList other))

def visibilityLayout (exported : Bool) : Layout :=
  if exported then .node .visibility (.word .pubWord "pub") else .nothing

def bodyLayout : Option Term → Layout
  | some term => term.layout
  | none => .nothing

def fieldContent (field : String × TypeExpr) : Layout :=
  (Layout.word .identifier field.1).next ((Layout.raw .colon ":").next field.2.layout)

def fieldsLayout : List (String × TypeExpr) → Bool → Layout
  | [], _ => .nothing
  | field :: rest, isFirst =>
      (separator isFirst (.raw .comma ",")).next
        ((Layout.node .typeField (fieldContent field)).next (fieldsLayout rest false))

def Decl.kind : Decl → Kind
  | .bringIn _ => .importDeclaration
  | .binding .. => .binding
  | .signature .. => .signature
  | .typeDefinition .. => .typeDefinition

def Decl.content : Decl → Layout
  | .bringIn path =>
      (Layout.word .importWord "import").next
        (.node .accessChain (pathLayout (splitPath path.toList)))
  | .binding exported identifiers body =>
      (visibilityLayout exported).next
        ((Layout.all (identifiers.map (Layout.word .identifier))).next
          ((Layout.word .equals "=").next (bodyLayout body)))
  | .signature name type =>
      (Layout.word .identifier name).next ((Layout.word .colonColon "::").next type.layout)
  | .typeDefinition exported name fields =>
      (visibilityLayout exported).next
        ((Layout.word .typeWord "type").next
          ((Layout.word .identifier name).next
            ((Layout.word .leftParen "(").next
              ((fieldsLayout fields true).next (.raw .rightParen ")")))))

def Decl.layout (decl : Decl) : Layout := .node decl.kind decl.content

def declsLayout : List Decl → Bool → Layout
  | [], _ => .nothing
  | decl :: rest, isFirst =>
      (separator isFirst (.raw .whitespace "\n")).next
        (decl.layout.next (declsLayout rest false))

def tree (decls : List Decl) : Tree := .node .program (declsLayout decls true "")

theorem writePath_eq_lay (parts : List (List Char)) (draft : Draft) :
    writePath parts draft = draft.lay (pathLayout parts) := by
  cases parts with
  | nil => exact (Draft.lay_nothing draft).symm
  | cons part rest =>
      have step (inner : Draft) (other : List Char) :
          (inner.raw .colonColon "::").raw .identifier (String.ofList other) =
            inner.lay ((Layout.raw .colonColon "::").next
              (.raw .identifier (String.ofList other))) := by
        rw [Draft.raw_eq_lay, Draft.raw_eq_lay, ← Draft.lay_next]
      rw [writePath, Draft.foldl_eq_lay _ _ step, Draft.word_eq_lay, ← Draft.lay_next]
      rfl

theorem writeVisibility_eq_lay (exported : Bool) (draft : Draft) :
    writeVisibility exported draft = draft.lay (visibilityLayout exported) := by
  cases exported with
  | true => exact Draft.node_eq_lay _ _ _ (Draft.word_eq_lay .pubWord "pub") draft
  | false => exact (Draft.lay_nothing draft).symm

theorem writeFields_eq_lay (fields : List (String × TypeExpr)) (isFirst : Bool) (draft : Draft) :
    writeFields fields isFirst draft = draft.lay (fieldsLayout fields isFirst) := by
  induction fields generalizing isFirst draft with
  | nil => exact (Draft.lay_nothing draft).symm
  | cons field rest ih =>
      have written (inner : Draft) :
          field.2.write ((inner.word .identifier field.1).raw .colon ":") =
            inner.lay (fieldContent field) := by
        rw [field.2.write_eq_lay, Draft.word_eq_lay, Draft.raw_eq_lay, ← Draft.lay_next,
          ← Draft.lay_next]
        rfl
      rw [writeFields, separator_eq_lay _ (.raw .comma ",") (Draft.raw_eq_lay _ _),
        Draft.node_eq_lay _ _ _ written, ih, ← Draft.lay_next, ← Draft.lay_next]
      rfl

theorem Decl.write_eq_lay (decl : Decl) (draft : Draft) :
    decl.write draft = draft.lay decl.layout := by
  cases decl with
  | bringIn path =>
      rw [Decl.write]
      refine Draft.node_eq_lay _ _ _ (fun inner => ?_) draft
      rw [Draft.node_eq_lay _ _ _ (writePath_eq_lay _), Draft.word_eq_lay, ← Draft.lay_next]
      rfl
  | binding exported identifiers body =>
      rw [Decl.write]
      refine Draft.node_eq_lay _ _ _ (fun inner => ?_) draft
      have bodyWritten (rest : Draft) :
          (match body with
            | some term => term.write rest
            | none => rest) = rest.lay (bodyLayout body) := by
        cases body with
        | some term => exact term.write_eq_lay rest
        | none => exact (Draft.lay_nothing rest).symm
      refine (bodyWritten _).trans ?_
      rw [writeVisibility_eq_lay,
        Draft.foldl_eq_lay _ _ (fun rest name => Draft.word_eq_lay .identifier name rest),
        Draft.word_eq_lay, ← Draft.lay_next, ← Draft.lay_next, ← Draft.lay_next]
      rfl
  | signature name type =>
      rw [Decl.write]
      refine Draft.node_eq_lay _ _ _ (fun inner => ?_) draft
      rw [type.write_eq_lay, Draft.word_eq_lay, Draft.word_eq_lay, ← Draft.lay_next,
        ← Draft.lay_next]
      rfl
  | typeDefinition exported name fields =>
      rw [Decl.write]
      refine Draft.node_eq_lay _ _ _ (fun inner => ?_) draft
      dsimp only
      rw [writeFields_eq_lay, writeVisibility_eq_lay, Draft.word_eq_lay, Draft.word_eq_lay,
        Draft.word_eq_lay, Draft.raw_eq_lay, ← Draft.lay_next, ← Draft.lay_next,
        ← Draft.lay_next, ← Draft.lay_next, ← Draft.lay_next]
      rfl

theorem writeDecls_eq_lay (decls : List Decl) (isFirst : Bool) (draft : Draft) :
    writeDecls decls isFirst draft = draft.lay (declsLayout decls isFirst) := by
  induction decls generalizing isFirst draft with
  | nil => exact (Draft.lay_nothing draft).symm
  | cons decl rest ih =>
      rw [writeDecls, separator_eq_lay _ (.raw .whitespace "\n") (Draft.raw_eq_lay _ _),
        decl.write_eq_lay, ih, ← Draft.lay_next, ← Draft.lay_next]
      rfl

/-- What is written is the text of the tree with the tree's own events. -/
theorem draft_eq (decls : List Decl) :
    draft decls = ⟨(tree decls).text, (tree decls).events⟩ := by
  rw [draft, Draft.node_eq_lay _ _ _ (writeDecls_eq_lay decls true)]
  simp [Draft.lay, Draft.empty, Layout.after, Layout.node, tree, Forest.text,
    Forest.eventsFrom, Tree.events]

/-- Every source has a text and a tree, and the tree holds the text. -/
theorem render_eq (decls : List Decl) : render decls = .ok ((tree decls).text, tree decls) := by
  rw [render, draft_eq, Draft.tree, tree, Tree.ofEvents_events]
  rfl

end Bindery.Source
