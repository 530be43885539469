import Bindery.Proofs.Collection.Trivia
import Bindery.Proofs.Shift
import Bindery.Proofs.Syntax.Shift

set_option autoImplicit false

/-! Reading nodes that stand further to the right. What they declare and what is wrong with them is
the same, as much further to the right. What was recorded before has no part in it. -/

namespace Bindery

open Syntax

theorem Program.shift_append (distance : Nat) (first second : Program) :
    (first.append second).shift distance =
      (first.shift distance).append (second.shift distance) := by
  unfold append shift
  rw [List.map_append, List.map_append, List.map_append, List.map_append]

namespace Collection

/-! ### Operands -/

theorem shift_combineLast (distance : Nat) (operator : Option Operator) (operands : List Expr) :
    (combineLast operator operands).map (Expr.shift distance) =
      combineLast operator (operands.map (Expr.shift distance)) := by
  rcases operands with _ | ⟨right, _ | ⟨left, rest⟩⟩
  · cases operator <;> rfl
  · cases operator <;> rfl
  · cases operator with
    | none => rfl
    | some operator =>
        rw [combineLast, List.map_cons, Expr.shift_combine]
        rfl

theorem shift_labelLast (distance : Nat) (label : Option String) (span : Span)
    (operands : List Expr) :
    (labelLast label span operands).map (Expr.shift distance) =
      labelLast label (span.shift distance) (operands.map (Expr.shift distance)) := by
  cases operands with
  | nil => rfl
  | cons value rest =>
      rw [labelLast, List.map_cons, Expr.shift]
      rfl

theorem shift_callLast (distance count : Nat) (span : Span) (operands : List Expr) :
    (callLast count span operands).map (Expr.shift distance) =
      callLast count (span.shift distance) (operands.map (Expr.shift distance)) := by
  unfold callLast
  rw [← List.map_drop, ← List.map_take, ← List.map_reverse]
  cases operands.drop count with
  | nil => rfl
  | cons callee rest => rw [List.map_cons, List.map_cons, Expr.shift_apply]

/-! ### One node -/

section Step

variable (distance : Nat) (node : Node)

theorem literalText_shift (kind : Kind) :
    literalText (node.shift distance) kind = literalText node kind := by
  unfold literalText
  rw [node.token?_shift, Option.map_map]
  rfl

theorem fragmentOf?_shift :
    fragmentOf? (node.shift distance) = (fragmentOf? node).map (Spanned.shift distance) := by
  have named (make : String → Ty) :
      ((node.shift distance).token? .identifier).map
          (fun name => (⟨make name.text, (node.shift distance).span⟩ : Spanned Ty)) =
        ((node.token? .identifier).map fun name => ⟨make name.text, node.span⟩).map
          (Spanned.shift distance) := by
    rw [node.token?_shift, node.span_shift, Option.map_map, Option.map_map]
    rfl
  have kind : (node.shift distance).kind = node.kind := rfl
  unfold fragmentOf?
  rw [kind]
  cases node.kind with
  | namedType => exact named Ty.ofName
  | variableType => exact named Ty.variable
  | voidType => simp only [node.span_shift, Option.map_some, Spanned.shift]
  | _ => rfl

theorem leafOf?_shift :
    leafOf? (node.shift distance) = (leafOf? node).map (Expr.shift distance) := by
  have named : ((node.shift distance).token? .identifier).map
      (fun name => Expr.identifier name.text (node.shift distance).span) =
        ((node.token? .identifier).map fun name => Expr.identifier name.text node.span).map
          (Expr.shift distance) := by
    rw [node.token?_shift, node.span_shift, Option.map_map, Option.map_map]
    rfl
  have kind : (node.shift distance).kind = node.kind := rfl
  unfold leafOf?
  rw [kind]
  cases node.kind with
  | intLiteral => simp [Expr.shift, literalText_shift, Node.span_shift]
  | floatLiteral => simp [Expr.shift, literalText_shift, Node.span_shift]
  | stringLiteral => simp [Expr.shift, literalText_shift, Node.span_shift]
  | boolLiteral => simp [Expr.shift, literalText_shift, Node.span_shift]
  | identExpr => exact named
  | _ => rfl

theorem shift_fragmentsAfter (fragments : List (Spanned Ty)) :
    (fragmentsAfter fragments node).map (Spanned.shift distance) =
      fragmentsAfter (fragments.map (Spanned.shift distance)) (node.shift distance) := by
  have kind : (node.shift distance).kind = node.kind := rfl
  unfold fragmentsAfter
  rw [kind, fragmentOf?_shift]
  split
  · rfl
  · rw [List.map_append, Option.toList_map]

theorem shift_operandsAfter (operands : List Expr) :
    (operandsAfter operands node).map (Expr.shift distance) =
      operandsAfter (operands.map (Expr.shift distance)) (node.shift distance) := by
  have same := node.outline_shift distance
  have kind : (node.shift distance).kind = node.kind := rfl
  have pushed : ((leafOf? node).toList ++ operands).map (Expr.shift distance) =
      (leafOf? (node.shift distance)).toList ++ operands.map (Expr.shift distance) := by
    rw [List.map_append, leafOf?_shift, Option.toList_map]
  unfold operandsAfter
  rw [kind]
  cases node.kind with
  | binding => rfl
  | binaryExpr => rw [shift_combineLast, operatorOf?_of_outline same]
  | argument => rw [shift_labelLast, labelOf?_of_outline same, node.span_shift]
  | call => rw [shift_callLast, argumentCount_of_outline same, node.span_shift]
  | _ => exact pushed

theorem shift_fieldFrom? (name : Option (Spanned String)) (fragments : List (Spanned Ty)) :
    (fieldFrom? name fragments).map (Field.shift distance) =
      fieldFrom? (name.map (Spanned.shift distance))
        (fragments.map (Spanned.shift distance)) := by
  cases name with
  | none => rfl
  | some name => rcases fragments with _ | ⟨type, _ | ⟨second, more⟩⟩ <;> rfl

theorem shift_fieldFaults (name : Option (Spanned String)) (fragments : List (Spanned Ty))
    (span : Span) :
    (fieldFaults name fragments span).map (SemanticError.shift distance) =
      fieldFaults (name.map (Spanned.shift distance)) (fragments.map (Spanned.shift distance))
        (span.shift distance) := by
  cases name with
  | none => rfl
  | some name => rcases fragments with _ | ⟨type, _ | ⟨second, more⟩⟩ <;> rfl

theorem shift_fieldsAfter (fragments : List (Spanned Ty)) (fields : List Field) :
    (fieldsAfter fragments fields node).map (Field.shift distance) =
      fieldsAfter (fragments.map (Spanned.shift distance)) (fields.map (Field.shift distance))
        (node.shift distance) := by
  have kind : (node.shift distance).kind = node.kind := rfl
  unfold fieldsAfter
  rw [kind]
  cases node.kind with
  | typeDefinition => rfl
  | typeField =>
      simp only [List.map_append, ← Option.toList_map, shift_fieldFrom?, node.identifier?_shift]
  | _ => rfl

theorem importFrom?_shift :
    importFrom? (node.shift distance) = (importFrom? node).map (Spanned.shift distance) := by
  unfold importFrom?
  rw [node.child?_shift, Option.map_map, Option.map_map]
  congr 1
  funext chain
  change (⟨_, (chain.shift distance).span⟩ : Spanned String) = _
  rw [chain.span_shift]
  rfl

theorem shift_bodyFrom? (operands : List Expr) :
    (bodyFrom? node operands).map (Expr.shift distance) =
      bodyFrom? (node.shift distance) (operands.map (Expr.shift distance)) := by
  unfold bodyFrom?
  rw [hasExpression_of_outline (node.outline_shift distance), List.head?_map]
  split <;> rfl

theorem shift_bindingFrom? (identifiers : List (Spanned String)) (body : Option Expr)
    (exported : Bool) :
    (bindingFrom? identifiers body exported).map (BindingDecl.shift distance) =
      bindingFrom? (identifiers.map (Spanned.shift distance)) (body.map (Expr.shift distance))
        exported := by
  cases identifiers with
  | nil => rfl
  | cons name parameters =>
      cases body with
      | none => rfl
      | some body => simp [bindingFrom?, BindingDecl.shift, Spanned.shift]

theorem shift_bindingFaults (identifiers : List (Spanned String)) (body : Option Expr)
    (span : Span) :
    (bindingFaults identifiers body span).map (SemanticError.shift distance) =
      bindingFaults (identifiers.map (Spanned.shift distance)) (body.map (Expr.shift distance))
        (span.shift distance) := by
  cases identifiers with
  | nil => rfl
  | cons name parameters => cases body <;> rfl

theorem shift_signatureFrom? (fragments : List (Spanned Ty)) :
    (signatureFrom? node fragments).map (SignatureDecl.shift distance) =
      signatureFrom? (node.shift distance) (fragments.map (Spanned.shift distance)) := by
  unfold signatureFrom?
  rw [node.identifier?_shift, Option.map_map, Option.map_map]
  rfl

theorem shift_typeFrom? (fields : List Field) :
    (typeFrom? node fields).map (TypeDecl.shift distance) =
      typeFrom? (node.shift distance) (fields.map (Field.shift distance)) := by
  unfold typeFrom?
  rw [node.identifier?_shift, isExported_of_outline (node.outline_shift distance),
    Option.map_map, Option.map_map]
  rfl

theorem shift_integerFaults (text : String) (span : Span) :
    (integerFaults text span).map (SemanticError.shift distance) =
      integerFaults text (span.shift distance) := by
  unfold integerFaults
  split <;> rfl

theorem shift_floatFaults (text : String) (span : Span) :
    (floatFaults text span).map (SemanticError.shift distance) =
      floatFaults text (span.shift distance) := by
  unfold floatFaults
  split <;> rfl

end Step

/-! ### The state -/

/-- All that was read, further to the right. -/
def shift (distance : Nat) (state : Collection) : Collection where
  fragments := state.fragments.map (Spanned.shift distance)
  operands := state.operands.map (Expr.shift distance)
  fields := state.fields.map (Field.shift distance)
  program := state.program.shift distance
  errors := state.errors.map (SemanticError.shift distance)

theorem shift_declared (distance : Nat) (state : Collection) (node : Node) :
    (state.declared node).shift distance =
      (state.shift distance).declared (node.shift distance) := by
  have kind : (node.shift distance).kind = node.kind := rfl
  unfold declared
  rw [kind]
  cases node.kind with
  | importDeclaration =>
      simp only [Program.shift, ← Option.toList_map, importFrom?_shift, Program.empty,
        List.map_nil]
  | binding =>
      simp only [Program.shift, ← Option.toList_map, shift_bindingFrom?, shift_bodyFrom?,
        node.identifiers_shift, isExported_of_outline (node.outline_shift distance), shift,
        Program.empty, List.map_nil]
  | signature =>
      simp only [Program.shift, ← Option.toList_map, shift_signatureFrom?, shift,
        Program.empty, List.map_nil]
  | typeDefinition =>
      simp only [Program.shift, ← Option.toList_map, shift_typeFrom?, shift, Program.empty,
        List.map_nil]
  | _ => rfl

theorem shift_faults (distance : Nat) (state : Collection) (node : Node) :
    (state.faults node).map (SemanticError.shift distance) =
      (state.shift distance).faults (node.shift distance) := by
  have kind : (node.shift distance).kind = node.kind := rfl
  unfold faults
  rw [kind]
  cases node.kind with
  | binding =>
      rw [shift_bindingFaults, shift_bodyFrom?, node.identifiers_shift, node.span_shift]
      rfl
  | signature =>
      simp only [node.identifier?_shift, Option.isSome_map, node.span_shift]
      split <;> rfl
  | typeField =>
      rw [shift_fieldFaults, node.identifier?_shift, node.span_shift]
      rfl
  | intLiteral =>
      rw [shift_integerFaults, literalText_shift distance node .integer, node.span_shift]
  | floatLiteral =>
      rw [shift_floatFaults, literalText_shift distance node .float, node.span_shift]
  | _ => rfl

theorem shift_read (distance : Nat) (state : Collection) (node : Node) :
    (state.read node).shift distance = (state.shift distance).read (node.shift distance) := by
  rw [read_eq_after, read_eq_after]
  unfold after
  rw [← shift_declared, ← shift_faults]
  unfold shift
  simp only [shift_fragmentsAfter, shift_operandsAfter, shift_fieldsAfter,
    Program.shift_append, List.map_append]

/-- Nodes further to the right are read in the same way. -/
theorem shift_readAll (distance : Nat) (state : Collection) (nodes : List Node) :
    (state.readAll nodes).shift distance =
      (state.shift distance).readAll (nodes.map (Node.shift distance)) := by
  induction nodes generalizing state with
  | nil => rfl
  | cons node rest ih =>
      have later := ih (state.read node)
      rw [shift_read] at later
      exact later

/-! ### What was recorded before -/

/-- The state with an earlier program and earlier errors in front of its own. -/
def behind (program : Program) (errors : List SemanticError) (state : Collection) : Collection :=
  { state with program := program.append state.program, errors := errors ++ state.errors }

theorem behind_read (program : Program) (errors : List SemanticError) (state : Collection)
    (node : Node) :
    (state.behind program errors).read node = (state.read node).behind program errors := by
  rw [read_eq_after, read_eq_after]
  unfold after behind
  rw [← Program.append_assoc, ← List.append_assoc]
  rfl

/-- Reading only adds to a program and to errors, and it never looks at them. -/
theorem behind_readAll (program : Program) (errors : List SemanticError) (state : Collection)
    (nodes : List Node) :
    (state.behind program errors).readAll nodes =
      (state.readAll nodes).behind program errors := by
  induction nodes generalizing state with
  | nil => rfl
  | cons node rest ih =>
      have later := ih (state.read node)
      rw [← behind_read] at later
      exact later

end Collection

end Bindery
