import Bindery.Proofs.Collection.Operands

set_option autoImplicit false

/-! What reading one node does. Every part of the state after it is given by the node and by the
part that it takes from the state before it: a signature and a field take the fragments, a type
definition takes the fields, a binding takes the operands, and expression nodes work on the last
of them. -/

namespace Bindery

open Syntax

def Program.append (first second : Program) : Program where
  imports := first.imports ++ second.imports
  bindings := first.bindings ++ second.bindings
  signatures := first.signatures ++ second.signatures
  types := first.types ++ second.types

theorem Program.append_empty (program : Program) : program.append .empty = program := by
  simp [append, empty]

theorem Program.append_assoc (first second third : Program) :
    (first.append second).append third = first.append (second.append third) := by
  simp [append]

theorem Program.unplaced_append (first second : Program) :
    (first.append second).unplaced = first.unplaced.append second.unplaced := by
  unfold append unplaced
  rw [List.map_append, List.map_append, List.map_append, List.map_append]

namespace Collection

/-! ### Fragments -/

def takesFragments : Kind → Bool
  | .signature | .typeField => true
  | _ => false

/-- The fragment that a type node leaves. -/
def fragmentOf? (node : Node) : Option (Spanned Ty) :=
  match node.kind with
  | .namedType => (node.token? .identifier).map fun name => ⟨.ofName name.text, node.span⟩
  | .voidType => some ⟨.void, node.span⟩
  | .variableType => (node.token? .identifier).map fun name => ⟨.variable name.text, node.span⟩
  | _ => none

def fragmentsAfter (fragments : List (Spanned Ty)) (node : Node) : List (Spanned Ty) :=
  if takesFragments node.kind then [] else fragments ++ (fragmentOf? node).toList

/-! ### Operands -/

/-- The operand that a literal or a name leaves. -/
def leafOf? (node : Node) : Option Expr :=
  match node.kind with
  | .intLiteral =>
      some (.integer ((Number.readInteger? (literalText node .integer)).getD 0) node.span)
  | .floatLiteral =>
      some (.float ((Number.Binary64.read? (literalText node .float)).getD .zero) node.span)
  | .stringLiteral => some (.string (unquote (literalText node .string)) node.span)
  | .boolLiteral => some (.boolean (literalText node .boolean = "true") node.span)
  | .identExpr => (node.token? .identifier).map fun name => .identifier name.text node.span
  | _ => none

def labelOf? (node : Node) : Option String := node.identifier?.map Spanned.value

def operandsAfter (operands : List Expr) (node : Node) : List Expr :=
  match node.kind with
  | .binding => []
  | .binaryExpr => combineLast (operatorOf? node) operands
  | .argument => labelLast (labelOf? node) node.span operands
  | .call => callLast (argumentCount node) node.span operands
  | _ => (leafOf? node).toList ++ operands

/-! ### Fields -/

/-- The field of a name and of what stands behind it. -/
def fieldFrom? (name : Option (Spanned String)) (fragments : List (Spanned Ty)) : Option Field :=
  match name, fragments with
  | some name, [type] => some ⟨name, type⟩
  | _, _ => none

def fieldFaults (name : Option (Spanned String)) (fragments : List (Spanned Ty)) (span : Span) :
    List SemanticError :=
  match name, fragments with
  | some name, _ :: _ :: _ => [.functionField name.value span]
  | _, _ => []

def fieldsAfter (fragments : List (Spanned Ty)) (fields : List Field) (node : Node) :
    List Field :=
  match node.kind with
  | .typeDefinition => []
  | .typeField => fields ++ (fieldFrom? node.identifier? fragments).toList
  | _ => fields

theorem fieldsAfter_of_ne (fragments : List (Spanned Ty)) (fields : List Field) {node : Node}
    (definition : node.kind ≠ .typeDefinition) (field : node.kind ≠ .typeField) :
    fieldsAfter fragments fields node = fields := by
  unfold fieldsAfter
  split
  · contradiction
  · contradiction
  · rfl

/-! ### Declarations -/

def importFrom? (node : Node) : Option (Spanned String) :=
  (node.child? .accessChain).map fun chain => ⟨chain.significantText, chain.span⟩

def hasExpression (node : Node) : Bool := node.nodes.any fun child => child.kind.isExpression

def bodyFrom? (node : Node) (operands : List Expr) : Option Expr :=
  if hasExpression node then operands.head? else none

def bindingFrom? (identifiers : List (Spanned String)) (body : Option Expr) (exported : Bool) :
    Option BindingDecl :=
  match identifiers, body with
  | name :: parameters, some body => some ⟨name, parameters.map Spanned.value, body, exported⟩
  | _, _ => none

def bindingFaults (identifiers : List (Spanned String)) (body : Option Expr) (span : Span) :
    List SemanticError :=
  match identifiers, body with
  | [], _ => [.bindingWithoutName span]
  | name :: _, none => [.bindingWithoutBody name.value span]
  | _ :: _, some _ => []

def signatureFrom? (node : Node) (fragments : List (Spanned Ty)) : Option SignatureDecl :=
  node.identifier?.map fun name => ⟨name, fragments⟩

def typeFrom? (node : Node) (fields : List Field) : Option TypeDecl :=
  node.identifier?.map fun name => ⟨name, fields, node.isExported⟩

/-- What a node declares, for the fragments, operands and fields that it finds. -/
def declared (state : Collection) (node : Node) : Program :=
  match node.kind with
  | .importDeclaration => { Program.empty with imports := (importFrom? node).toList }
  | .binding =>
      { Program.empty with
        bindings :=
          (bindingFrom? node.identifiers (bodyFrom? node state.operands) node.isExported).toList }
  | .signature =>
      { Program.empty with signatures := (signatureFrom? node state.fragments).toList }
  | .typeDefinition => { Program.empty with types := (typeFrom? node state.fields).toList }
  | _ => .empty

theorem imports_declared_of_ne (state : Collection) {node : Node}
    (other : node.kind ≠ .importDeclaration) : (state.declared node).imports = [] := by
  unfold declared
  split
  case h_1 => contradiction
  all_goals rfl

theorem bindings_declared_of_ne (state : Collection) {node : Node}
    (other : node.kind ≠ .binding) : (state.declared node).bindings = [] := by
  unfold declared
  split
  case h_2 => contradiction
  all_goals rfl

theorem signatures_declared_of_ne (state : Collection) {node : Node}
    (other : node.kind ≠ .signature) : (state.declared node).signatures = [] := by
  unfold declared
  split
  case h_3 => contradiction
  all_goals rfl

theorem types_declared_of_ne (state : Collection) {node : Node}
    (other : node.kind ≠ .typeDefinition) : (state.declared node).types = [] := by
  unfold declared
  split
  case h_4 => contradiction
  all_goals rfl

def faults (state : Collection) (node : Node) : List SemanticError :=
  match node.kind with
  | .binding => bindingFaults node.identifiers (bodyFrom? node state.operands) node.span
  | .signature => if node.identifier?.isSome then [] else [.bindingWithoutName node.span]
  | .typeField => fieldFaults node.identifier? state.fragments node.span
  | .intLiteral => integerFaults (literalText node .integer) node.span
  | .floatLiteral => floatFaults (literalText node .float) node.span
  | _ => []

/-! ### The step -/

theorem readImport_eq (state : Collection) (node : Node) :
    state.readImport node =
      { state with
        program :=
          state.program.append
            { Program.empty with imports := (importFrom? node).toList } } := by
  unfold readImport importFrom?
  cases node.child? .accessChain with
  | none => simp [Program.append, Program.empty]
  | some chain => simp [Program.append, Program.empty]

theorem bodyOf?_eq (state : Collection) (node : Node) :
    state.bodyOf? node = bodyFrom? node state.operands := rfl

theorem readBinding_eq (state : Collection) (node : Node) :
    state.readBinding node =
      { state with
        operands := []
        program :=
          state.program.append
            { Program.empty with
              bindings :=
                (bindingFrom? node.identifiers (bodyFrom? node state.operands)
                  node.isExported).toList }
        errors :=
          state.errors ++
            bindingFaults node.identifiers (bodyFrom? node state.operands) node.span } := by
  unfold readBinding Node.identifier?
  rw [bodyOf?_eq]
  cases bodyFrom? node state.operands with
  | none =>
      cases node.identifiers with
      | nil => simp [bindingFrom?, bindingFaults, report, Program.append, Program.empty]
      | cons name parameters =>
          simp [bindingFrom?, bindingFaults, report, Program.append, Program.empty]
  | some body =>
      cases node.identifiers with
      | nil =>
          simp [BindingDecl.ofHead, bindingFrom?, bindingFaults, report, Program.append,
            Program.empty]
      | cons name parameters =>
          simp [BindingDecl.ofHead, bindingFrom?, bindingFaults, Program.append, Program.empty]

theorem readSignature_eq (state : Collection) (node : Node) :
    state.readSignature node =
      { state with
        fragments := []
        program :=
          state.program.append
            { Program.empty with signatures := (signatureFrom? node state.fragments).toList }
        errors :=
          state.errors ++
            if node.identifier?.isSome then [] else [.bindingWithoutName node.span] } := by
  unfold readSignature signatureFrom?
  cases node.identifier? with
  | none => simp [report, Program.append, Program.empty]
  | some name => simp [Program.append, Program.empty]

theorem readField_eq (state : Collection) (node : Node) :
    state.readField node =
      { state with
        fragments := []
        fields := state.fields ++ (fieldFrom? node.identifier? state.fragments).toList
        errors := state.errors ++ fieldFaults node.identifier? state.fragments node.span } := by
  unfold readField fieldFrom? fieldFaults
  cases node.identifier? with
  | none => simp
  | some name =>
      rcases state.fragments with _ | ⟨type, _ | ⟨second, more⟩⟩
      · simp
      · simp
      · simp [report]

theorem readType_eq (state : Collection) (node : Node) :
    state.readType node =
      { state with
        fields := []
        program :=
          state.program.append
            { Program.empty with types := (typeFrom? node state.fields).toList } } := by
  unfold readType typeFrom?
  cases node.identifier? with
  | none => simp [Program.append, Program.empty]
  | some name => simp [Program.append, Program.empty]

/-- The state after a node. -/
def after (state : Collection) (node : Node) : Collection where
  fragments := fragmentsAfter state.fragments node
  operands := operandsAfter state.operands node
  fields := fieldsAfter state.fragments state.fields node
  program := state.program.append (state.declared node)
  errors := state.errors ++ state.faults node

theorem read_eq_after (state : Collection) (node : Node) : state.read node = state.after node := by
  unfold read after fragmentsAfter operandsAfter fieldsAfter declared faults takesFragments
    fragmentOf? leafOf? labelOf?
  cases node.kind with
  | importDeclaration => simp [readImport_eq]
  | binding => simp [readBinding_eq]
  | signature => simp [readSignature_eq]
  | typeDefinition => simp [readType_eq]
  | typeField => simp [readField_eq, Program.append_empty]
  | namedType | variableType =>
      cases node.token? .identifier with
      | none => simp [Program.append_empty]
      | some name => simp [pushFragment, Program.append_empty]
  | voidType => simp [pushFragment, Program.append_empty]
  | intLiteral => simp [readInteger_eq, leave, Program.append_empty]
  | floatLiteral => simp [readFloat_eq, leave, Program.append_empty]
  | stringLiteral | boolLiteral => simp [pushOperand, Program.append_empty]
  | identExpr =>
      cases node.token? .identifier with
      | none => simp [Program.append_empty]
      | some name => simp [pushOperand, Program.append_empty]
  | binaryExpr => simp [readBinary_eq, leave, Program.append_empty]
  | argument => simp [readArgument_eq, leave, Program.append_empty]
  | call => simp [readCall_eq, leave, Program.append_empty]
  -- The other kinds stand for nothing that is recorded.
  | _ => simp [Program.append_empty]

theorem readAll_cons (state : Collection) (node : Node) (rest : List Node) :
    state.readAll (node :: rest) = (state.read node).readAll rest := rfl

end Collection

theorem Program.eq_of_ofTree {tree : Tree} {program : Program}
    (declares : ofTree tree = .ok program) :
    program = (Collection.empty.readAll tree.postorder).program := by
  unfold ofTree Collection.result at declares
  split at declares
  · exact (Except.ok.inj declares).symm
  · cases declares

end Bindery
