import Bindery.Proofs.Collection.Step
import Bindery.Proofs.Syntax.Trivia

set_option autoImplicit false

/-! Blanks and comments have no part in what a tree declares. Wherever they stand, also in the
middle of a path, a literal or a head, the same declarations and the same errors are found. -/

namespace Bindery

open Syntax

namespace Collection

/-! ### What is asked of a node -/

section Outline

variable {node other : Node}

theorem text_token?_of_outline (same : node.outline = other.outline) (kind : Kind)
    (significant : kind.isTrivia = false) :
    (node.token? kind).map Token.text = (other.token? kind).map Token.text := by
  rw [node.text_token? kind significant, other.text_token? kind significant, same]

theorem identifiers_of_outline (same : node.outline = other.outline) :
    node.identifiers.map Spanned.unplaced = other.identifiers.map Spanned.unplaced := by
  have spelled (one : Node) : one.identifiers.map Spanned.unplaced =
      (one.outline.textsOf .identifier).map fun text => ⟨text, .nowhere⟩ := by
    rw [← one.texts_tokensOf .identifier rfl, Node.identifiers, List.map_map, List.map_map]
    rfl
  rw [spelled, spelled, same]

theorem identifier?_of_outline (same : node.outline = other.outline) :
    node.identifier?.map Spanned.unplaced = other.identifier?.map Spanned.unplaced := by
  rw [Node.identifier?, Node.identifier?, ← List.head?_map, ← List.head?_map,
    identifiers_of_outline same]

theorem labelOf?_of_outline (same : node.outline = other.outline) :
    labelOf? node = labelOf? other := by
  have named := congrArg (Option.map Spanned.value) (identifier?_of_outline same)
  rw [Option.map_map, Option.map_map] at named
  exact named

theorem literalText_of_outline (same : node.outline = other.outline) (kind : Kind)
    (significant : kind.isTrivia = false) : literalText node kind = literalText other kind := by
  rw [literalText, literalText, text_token?_of_outline same kind significant]

theorem operatorOf?_of_outline (same : node.outline = other.outline) :
    operatorOf? node = operatorOf? other := by
  have spelled (one : Node) : operatorOf? one =
      (([.plus, .minus, .star, .slash] : List Kind).findSome? fun kind =>
        (one.token? kind).map Token.text).bind Operator.ofSymbol? := by
    change _ = (List.findSome? (Option.map Token.text ∘ one.token?) _).bind _
    rw [← List.map_findSome?, Option.bind_map]
    rfl
  rw [spelled, spelled]
  simp only [List.findSome?_cons, List.findSome?_nil, text_token?_of_outline same .plus rfl,
    text_token?_of_outline same .minus rfl, text_token?_of_outline same .star rfl,
    text_token?_of_outline same .slash rfl]

theorem outlines_nodes_of_outline (same : node.outline = other.outline) :
    node.nodes.map Node.outline = other.nodes.map Node.outline := by
  rw [node.outlines_nodes, other.outlines_nodes, same]

theorem kinds_nodes_of_outline (same : node.outline = other.outline) :
    node.nodes.map Node.kind = other.nodes.map Node.kind := by
  have kinds := congrArg (List.map Tree.kind) (outlines_nodes_of_outline same)
  rw [List.map_map, List.map_map] at kinds
  exact kinds

theorem argumentCount_of_outline (same : node.outline = other.outline) :
    argumentCount node = argumentCount other := by
  have counted (one : Node) : argumentCount one =
      ((one.nodes.map Node.kind).filter fun kind => kind = .argument).length := by
    rw [List.filter_map, List.length_map]
    rfl
  rw [counted, counted, kinds_nodes_of_outline same]

theorem hasExpression_of_outline (same : node.outline = other.outline) :
    hasExpression node = hasExpression other := by
  have found (one : Node) : hasExpression one =
      (one.nodes.map Node.kind).any Kind.isExpression := by
    rw [List.any_map]
    rfl
  rw [found, found, kinds_nodes_of_outline same]

theorem outline_child?_of_outline (same : node.outline = other.outline) (kind : Kind) :
    (node.child? kind).map Node.outline = (other.child? kind).map Node.outline := by
  have found (one : Node) : (one.child? kind).map Node.outline =
      (one.nodes.map Node.outline).find? fun tree => tree.kind = kind := by
    rw [List.find?_map]
    rfl
  rw [found, found, outlines_nodes_of_outline same]

theorem isExported_of_outline (same : node.outline = other.outline) :
    node.isExported = other.isExported := by
  have child := outline_child?_of_outline same .visibility
  unfold Node.isExported
  cases found : node.child? .visibility with
  | none =>
      rw [found, Option.map_none, eq_comm, Option.map_eq_none_iff] at child
      rw [child]
  | some visibility =>
      rw [found, Option.map_some, eq_comm, Option.map_eq_some_iff] at child
      obtain ⟨otherVisibility, otherFound, alike⟩ := child
      have word := congrArg Option.isSome (text_token?_of_outline alike.symm .pubWord rfl)
      rw [Option.isSome_map, Option.isSome_map] at word
      rw [otherFound]
      exact word

end Outline

/-! ### The state without places -/

def unplaced (state : Collection) : Collection where
  fragments := state.fragments.map Spanned.unplaced
  operands := state.operands.map Expr.unplaced
  fields := state.fields.map Field.unplaced
  program := state.program.unplaced
  errors := state.errors.map SemanticError.unplaced

section Step

variable {node other : Node}

theorem fragmentOf?_of_outline (same : node.outline = other.outline) :
    (fragmentOf? node).map Spanned.unplaced = (fragmentOf? other).map Spanned.unplaced := by
  have name := text_token?_of_outline same .identifier rfl
  have read (make : String → Ty) (one : Node) :
      ((one.token? .identifier).map fun name => (⟨make name.text, one.span⟩ : Spanned Ty)).map
        Spanned.unplaced =
          ((one.token? .identifier).map Token.text).map fun text => ⟨make text, .nowhere⟩ := by
    rw [Option.map_map, Option.map_map]
    rfl
  unfold fragmentOf?
  rw [Node.kind_eq_of_outline same]
  cases other.kind with
  | namedType => rw [read, read, name]
  | variableType => rw [read, read, name]
  | voidType => rfl
  | _ => rfl

theorem unplaced_fragmentsAfter (same : node.outline = other.outline)
    {fragments otherFragments : List (Spanned Ty)}
    (alike : fragments.map Spanned.unplaced = otherFragments.map Spanned.unplaced) :
    (fragmentsAfter fragments node).map Spanned.unplaced =
      (fragmentsAfter otherFragments other).map Spanned.unplaced := by
  unfold fragmentsAfter
  rw [Node.kind_eq_of_outline same]
  split
  · rfl
  · rw [List.map_append, List.map_append, alike, ← Option.toList_map, ← Option.toList_map,
      fragmentOf?_of_outline same]

theorem leafOf?_of_outline (same : node.outline = other.outline) :
    (leafOf? node).map Expr.unplaced = (leafOf? other).map Expr.unplaced := by
  have name := text_token?_of_outline same .identifier rfl
  have read (one : Node) :
      ((one.token? .identifier).map fun name => Expr.identifier name.text one.span).map
        Expr.unplaced =
          ((one.token? .identifier).map Token.text).map fun text =>
            Expr.identifier text .nowhere := by
    rw [Option.map_map, Option.map_map]
    rfl
  unfold leafOf?
  rw [Node.kind_eq_of_outline same]
  cases other.kind with
  | intLiteral => simp [Expr.unplaced, literalText_of_outline same .integer rfl]
  | floatLiteral => simp [Expr.unplaced, literalText_of_outline same .float rfl]
  | stringLiteral => simp [Expr.unplaced, literalText_of_outline same .string rfl]
  | boolLiteral => simp [Expr.unplaced, literalText_of_outline same .boolean rfl]
  | identExpr => rw [read, read, name]
  | _ => rfl

theorem unplaced_operandsAfter (same : node.outline = other.outline)
    {operands otherOperands : List Expr}
    (alike : operands.map Expr.unplaced = otherOperands.map Expr.unplaced) :
    (operandsAfter operands node).map Expr.unplaced =
      (operandsAfter otherOperands other).map Expr.unplaced := by
  have pushed : ((leafOf? node).toList ++ operands).map Expr.unplaced =
      ((leafOf? other).toList ++ otherOperands).map Expr.unplaced := by
    rw [List.map_append, List.map_append, alike, ← Option.toList_map, ← Option.toList_map,
      leafOf?_of_outline same]
  unfold operandsAfter
  rw [Node.kind_eq_of_outline same]
  cases other.kind with
  | binding => rfl
  | binaryExpr =>
      rw [unplaced_combineLast, unplaced_combineLast, alike, operatorOf?_of_outline same]
  | argument => rw [unplaced_labelLast, unplaced_labelLast, alike, labelOf?_of_outline same]
  | call => rw [unplaced_callLast, unplaced_callLast, alike, argumentCount_of_outline same]
  | _ => exact pushed

theorem unplaced_fieldFrom? (name : Option (Spanned String)) (fragments : List (Spanned Ty)) :
    (fieldFrom? name fragments).map Field.unplaced =
      fieldFrom? (name.map Spanned.unplaced) (fragments.map Spanned.unplaced) := by
  cases name with
  | none => rfl
  | some name => rcases fragments with _ | ⟨type, _ | ⟨second, more⟩⟩ <;> rfl

theorem unplaced_fieldFaults (name : Option (Spanned String)) (fragments : List (Spanned Ty))
    (span : Span) :
    (fieldFaults name fragments span).map SemanticError.unplaced =
      fieldFaults (name.map Spanned.unplaced) (fragments.map Spanned.unplaced) .nowhere := by
  cases name with
  | none => rfl
  | some name => rcases fragments with _ | ⟨type, _ | ⟨second, more⟩⟩ <;> rfl

theorem unplaced_fieldsAfter (same : node.outline = other.outline)
    {fragments otherFragments : List (Spanned Ty)} {fields otherFields : List Field}
    (alike : fragments.map Spanned.unplaced = otherFragments.map Spanned.unplaced)
    (fieldsAlike : fields.map Field.unplaced = otherFields.map Field.unplaced) :
    (fieldsAfter fragments fields node).map Field.unplaced =
      (fieldsAfter otherFragments otherFields other).map Field.unplaced := by
  unfold fieldsAfter
  rw [Node.kind_eq_of_outline same]
  cases other.kind with
  | typeDefinition => rfl
  | typeField =>
      rw [List.map_append, List.map_append, ← Option.toList_map, ← Option.toList_map,
        unplaced_fieldFrom?, unplaced_fieldFrom?, identifier?_of_outline same, alike,
        fieldsAlike]
  | _ => exact fieldsAlike

theorem importFrom?_of_outline (same : node.outline = other.outline) :
    (importFrom? node).map Spanned.unplaced = (importFrom? other).map Spanned.unplaced := by
  have read (one : Node) : (importFrom? one).map Spanned.unplaced =
      ((one.child? .accessChain).map Node.outline).map fun chain =>
        ⟨chain.text, .nowhere⟩ := by
    unfold importFrom?
    rw [Option.map_map, Option.map_map]
    congr 1
    funext chain
    rw [Function.comp_apply, Function.comp_apply, ← chain.significantText_outline]
    rfl
  rw [read, read, outline_child?_of_outline same]

theorem unplaced_bodyFrom? (same : node.outline = other.outline)
    {operands otherOperands : List Expr}
    (alike : operands.map Expr.unplaced = otherOperands.map Expr.unplaced) :
    (bodyFrom? node operands).map Expr.unplaced =
      (bodyFrom? other otherOperands).map Expr.unplaced := by
  unfold bodyFrom?
  rw [hasExpression_of_outline same]
  split
  · rw [← List.head?_map, ← List.head?_map, alike]
  · rfl

theorem unplaced_bindingFrom? (identifiers : List (Spanned String)) (body : Option Expr)
    (exported : Bool) :
    (bindingFrom? identifiers body exported).map BindingDecl.unplaced =
      bindingFrom? (identifiers.map Spanned.unplaced) (body.map Expr.unplaced) exported := by
  cases identifiers with
  | nil => rfl
  | cons name parameters =>
      cases body with
      | none => rfl
      | some body => simp [bindingFrom?, BindingDecl.unplaced, Spanned.unplaced]

theorem unplaced_bindingFaults (identifiers : List (Spanned String)) (body : Option Expr)
    (span : Span) :
    (bindingFaults identifiers body span).map SemanticError.unplaced =
      bindingFaults (identifiers.map Spanned.unplaced) (body.map Expr.unplaced) .nowhere := by
  cases identifiers with
  | nil => rfl
  | cons name parameters => cases body <;> rfl

theorem unplaced_signatureFrom? (same : node.outline = other.outline)
    {fragments otherFragments : List (Spanned Ty)}
    (alike : fragments.map Spanned.unplaced = otherFragments.map Spanned.unplaced) :
    (signatureFrom? node fragments).map SignatureDecl.unplaced =
      (signatureFrom? other otherFragments).map SignatureDecl.unplaced := by
  have read (one : Node) (found : List (Spanned Ty)) :
      (signatureFrom? one found).map SignatureDecl.unplaced =
        (one.identifier?.map Spanned.unplaced).map fun name =>
          ⟨name, found.map Spanned.unplaced⟩ := by
    unfold signatureFrom?
    rw [Option.map_map, Option.map_map]
    rfl
  rw [read, read, identifier?_of_outline same, alike]

theorem unplaced_typeFrom? (same : node.outline = other.outline)
    {fields otherFields : List Field}
    (alike : fields.map Field.unplaced = otherFields.map Field.unplaced) :
    (typeFrom? node fields).map TypeDecl.unplaced =
      (typeFrom? other otherFields).map TypeDecl.unplaced := by
  have read (one : Node) (found : List Field) :
      (typeFrom? one found).map TypeDecl.unplaced =
        (one.identifier?.map Spanned.unplaced).map fun name =>
          ⟨name, found.map Field.unplaced, one.isExported⟩ := by
    unfold typeFrom?
    rw [Option.map_map, Option.map_map]
    rfl
  rw [read, read, identifier?_of_outline same, alike, isExported_of_outline same]

variable {state otherState : Collection}

theorem unplaced_declared (same : node.outline = other.outline)
    (alike : state.unplaced = otherState.unplaced) :
    (state.declared node).unplaced = (otherState.declared other).unplaced := by
  have fragments : state.fragments.map Spanned.unplaced =
      otherState.fragments.map Spanned.unplaced := congrArg Collection.fragments alike
  have operands : state.operands.map Expr.unplaced =
      otherState.operands.map Expr.unplaced := congrArg Collection.operands alike
  have fields : state.fields.map Field.unplaced =
      otherState.fields.map Field.unplaced := congrArg Collection.fields alike
  unfold declared
  rw [Node.kind_eq_of_outline same]
  cases other.kind with
  | importDeclaration =>
      simp only [Program.unplaced, ← Option.toList_map, importFrom?_of_outline same]
  | binding =>
      simp only [Program.unplaced, ← Option.toList_map, unplaced_bindingFrom?,
        identifiers_of_outline same, unplaced_bodyFrom? same operands,
        isExported_of_outline same]
  | signature =>
      simp only [Program.unplaced, ← Option.toList_map, unplaced_signatureFrom? same fragments]
  | typeDefinition =>
      simp only [Program.unplaced, ← Option.toList_map, unplaced_typeFrom? same fields]
  | _ => rfl

theorem unplaced_faults (same : node.outline = other.outline)
    (alike : state.unplaced = otherState.unplaced) :
    (state.faults node).map SemanticError.unplaced =
      (otherState.faults other).map SemanticError.unplaced := by
  have fragments : state.fragments.map Spanned.unplaced =
      otherState.fragments.map Spanned.unplaced := congrArg Collection.fragments alike
  have operands : state.operands.map Expr.unplaced =
      otherState.operands.map Expr.unplaced := congrArg Collection.operands alike
  have name := identifier?_of_outline same
  unfold faults
  rw [Node.kind_eq_of_outline same]
  cases other.kind with
  | binding =>
      rw [unplaced_bindingFaults, unplaced_bindingFaults, identifiers_of_outline same,
        unplaced_bodyFrom? same operands]
  | signature =>
      have named := congrArg Option.isSome name
      rw [Option.isSome_map, Option.isSome_map] at named
      simp only [named]
      split <;> rfl
  | typeField => rw [unplaced_fieldFaults, unplaced_fieldFaults, name, fragments]
  | intLiteral =>
      rw [unplaced_integerFaults, unplaced_integerFaults,
        literalText_of_outline same .integer rfl]
  | floatLiteral =>
      rw [unplaced_floatFaults, unplaced_floatFaults, literalText_of_outline same .float rfl]
  | _ => rfl

/-- One node: what it leaves depends on what it says, not on how it is spaced or where it stands. -/
theorem unplaced_read (same : node.outline = other.outline)
    (alike : state.unplaced = otherState.unplaced) :
    (state.read node).unplaced = (otherState.read other).unplaced := by
  have fragments : state.fragments.map Spanned.unplaced =
      otherState.fragments.map Spanned.unplaced := congrArg Collection.fragments alike
  have operands : state.operands.map Expr.unplaced =
      otherState.operands.map Expr.unplaced := congrArg Collection.operands alike
  have fields : state.fields.map Field.unplaced =
      otherState.fields.map Field.unplaced := congrArg Collection.fields alike
  have program : state.program.unplaced = otherState.program.unplaced :=
    congrArg Collection.program alike
  have errors : state.errors.map SemanticError.unplaced =
      otherState.errors.map SemanticError.unplaced := congrArg Collection.errors alike
  rw [read_eq_after, read_eq_after]
  unfold after unplaced
  simp only [unplaced_fragmentsAfter same fragments, unplaced_operandsAfter same operands,
    unplaced_fieldsAfter same fragments fields, Program.unplaced_append, program,
    unplaced_declared same alike, List.map_append, errors, unplaced_faults same alike]

end Step

/-- Lists of nodes that say the same are read alike. -/
theorem unplaced_readAll {state otherState : Collection} {nodes others : List Node}
    (same : nodes.map Node.outline = others.map Node.outline)
    (alike : state.unplaced = otherState.unplaced) :
    (state.readAll nodes).unplaced = (otherState.readAll others).unplaced := by
  induction nodes generalizing state otherState others with
  | nil =>
      rw [List.map_nil, eq_comm, List.map_eq_nil_iff] at same
      rw [same]
      exact alike
  | cons node rest ih =>
      rw [List.map_cons, eq_comm, List.map_eq_cons_iff] at same
      obtain ⟨other, otherRest, rfl, head, tail⟩ := same
      change ((state.read node).readAll rest).unplaced =
        ((otherState.read other).readAll otherRest).unplaced
      exact ih tail.symm (unplaced_read head.symm alike)

theorem unplacedResult_result (state : Collection) :
    Program.unplacedResult state.result = state.unplaced.result := by
  unfold result unplaced
  rw [List.isEmpty_map]
  cases state.errors.isEmpty <;> rfl

end Collection

/-- Trees that differ in blanks and comments only, wherever these stand, declare the same or have
the same errors. -/
theorem Program.ofTree_of_withoutTrivia (tree other : Tree)
    (same : tree.withoutTrivia = other.withoutTrivia) :
    unplacedResult (ofTree tree) = unplacedResult (ofTree other) := by
  have outlines : tree.postorder.map Node.outline = other.postorder.map Node.outline := by
    rw [tree.outlines_postorder, other.outlines_postorder, same]
  rw [ofTree, ofTree, Collection.unplacedResult_result, Collection.unplacedResult_result,
    Collection.unplaced_readAll outlines rfl]

def sampleDense : Tree :=
  .node .program [
    .node .importDeclaration [
      .token .importWord "import",
      .node .accessChain [
        .token .identifier "std", .token .colonColon "::", .token .identifier "io"]],
    .node .binding [
      .token .identifier "x", .token .equals "=",
      .node .intLiteral [.token .integer "1"]]]

def sampleSpaced : Tree :=
  .node .program [
    .token .lineComment "-- head\n",
    .node .importDeclaration [
      .token .importWord "import", .token .whitespace " ",
      .node .accessChain [
        .token .whitespace " ", .token .identifier "std", .token .lineComment "-- path\n",
        .token .colonColon "::", .token .whitespace "\t", .token .identifier "io"]],
    .token .whitespace "\n",
    .node .binding [
      .token .identifier "x", .token .lineComment "-- name\n", .token .equals "=",
      .node .intLiteral [
        .token .whitespace " ", .token .integer "1", .token .lineComment "-- one"]]]

theorem Program.ofTree_sampleSpaced :
    sampleSpaced.withoutTrivia = sampleDense.withoutTrivia ∧
      unplacedResult (ofTree sampleSpaced) = unplacedResult (ofTree sampleDense) ∧
        unplacedResult (ofTree sampleDense) =
          .ok ⟨[⟨"std::io", .nowhere⟩],
            [⟨⟨"x", .nowhere⟩, [], .integer 1 .nowhere, false⟩], [], []⟩ :=
  ⟨rfl, ofTree_of_withoutTrivia sampleSpaced sampleDense rfl, by rfl⟩

end Bindery
