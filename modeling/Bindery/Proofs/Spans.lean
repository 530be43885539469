import Bindery.Proofs.Collection.Step
import Bindery.Text.Slice
import Mathlib.Tactic.Tauto

set_option autoImplicit false

/-! All places in declarations and errors: those of names, of types, of expressions at any depth
and of what an error points at. A property of places that passes on to the place covering two
others holds of a whole expression if it holds of its parts. -/

namespace Bindery

namespace Expr

mutual

/-- The places of an expression and of all its parts. -/
def spans : Expr → List Span
  | .integer _ span | .float _ span | .boolean _ span | .string _ span | .identifier _ span =>
      [span]
  | .binary left _ right span => span :: (left.spans ++ right.spans)
  | .call callee arguments span => span :: (callee.spans ++ spansAll arguments)
  | .argument _ value span => span :: value.spans

def spansAll : List Expr → List Span
  | [] => []
  | expr :: rest => expr.spans ++ spansAll rest

end

theorem spansAll_eq_flatMap (exprs : List Expr) : spansAll exprs = exprs.flatMap spans := by
  induction exprs with
  | nil => rfl
  | cons expr rest ih => rw [spansAll, ih, List.flatMap_cons]

theorem span_mem_spans (expr : Expr) : expr.span ∈ expr.spans := by
  cases expr <;> exact List.mem_cons_self

/-- A property of every place in an expression. -/
def Placed (holds : Span → Prop) (expr : Expr) : Prop := ∀ span ∈ expr.spans, holds span

variable {holds : Span → Prop}

theorem Placed.combine (closed : ∀ left right, holds left → holds right → holds (left.join right))
    {left right : Expr} (operator : Operator) (leftPlaced : left.Placed holds)
    (rightPlaced : right.Placed holds) : (Expr.combine left operator right).Placed holds := by
  have own := closed _ _ (leftPlaced _ left.span_mem_spans) (rightPlaced _ right.span_mem_spans)
  rw [Placed, Expr.combine, spans, List.forall_mem_cons, List.forall_mem_append]
  exact ⟨own, leftPlaced, rightPlaced⟩

theorem Placed.labelled (label : Option String) {value : Expr} {span : Span} (own : holds span)
    (valuePlaced : value.Placed holds) : (Expr.argument label value span).Placed holds := by
  rw [Placed, spans, List.forall_mem_cons]
  exact ⟨own, valuePlaced⟩

theorem Placed.toArgument {expr : Expr} (placed : expr.Placed holds) :
    expr.toArgument.Placed holds := by
  cases expr
  case argument label value span => exact placed
  all_goals exact .labelled none (placed _ (span_mem_spans _)) placed

theorem Placed.apply {callee : Expr} {arguments : List Expr} {span : Span} (own : holds span)
    (calleePlaced : callee.Placed holds)
    (argumentsPlaced : ∀ argument ∈ arguments, argument.Placed holds) :
    (Expr.apply callee arguments span).Placed holds := by
  rw [Placed, Expr.apply, spans, spansAll_eq_flatMap, List.forall_mem_cons,
    List.forall_mem_append, List.flatMap_map, List.forall_mem_flatMap]
  exact ⟨own, calleePlaced, fun argument member => (argumentsPlaced argument member).toArgument⟩

end Expr

/-! ### Declarations and errors -/

/-- A name stands in a text at its own place. -/
def Spanned.WrittenIn (text : String) (name : Spanned String) : Prop :=
  Text.slice text name.span = some name.value

def BindingDecl.spans (decl : BindingDecl) : List Span := decl.name.span :: decl.body.spans

def SignatureDecl.spans (decl : SignatureDecl) : List Span :=
  decl.name.span :: decl.fragments.map Spanned.span

def Field.spans (field : Field) : List Span := [field.name.span, field.type.span]

def TypeDecl.spans (decl : TypeDecl) : List Span :=
  decl.name.span :: decl.fields.flatMap Field.spans

/-- Every place in a program. -/
def Program.spans (program : Program) : List Span :=
  program.imports.map Spanned.span ++ program.bindings.flatMap BindingDecl.spans ++
    program.signatures.flatMap SignatureDecl.spans ++ program.types.flatMap TypeDecl.spans

def TypeDecl.names (decl : TypeDecl) : List (Spanned String) :=
  decl.name :: decl.fields.map Field.name

/-- The names of the bindings, signatures, types and fields of a program. -/
def Program.names (program : Program) : List (Spanned String) :=
  program.bindings.map BindingDecl.name ++ program.signatures.map SignatureDecl.name ++
    program.types.flatMap TypeDecl.names

/-- Every place in an error, that of an earlier definition included. -/
def SemanticError.spans : SemanticError → List Span
  | .bindingExists _ span first => [span, first]
  | .noSuchBinding _ span => span.toList
  | .typeExists _ span first => span :: first.toList
  | .unknownType _ span | .bindingWithoutName span | .bindingWithoutBody _ span
  | .functionField _ span | .invalidLiteral _ _ span => [span]
  | .notExported _ | .noSuchType _ => []

/-- Every place in what reading a tree comes to. -/
def Program.resultSpans : Except (List SemanticError) Program → List Span
  | .ok program => program.spans
  | .error errors => errors.flatMap SemanticError.spans

def Program.resultNames : Except (List SemanticError) Program → List (Spanned String)
  | .ok program => program.names
  | .error _ => []

theorem Program.mem_spans_append (first second : Program) (span : Span) :
    span ∈ (first.append second).spans ↔ span ∈ first.spans ∨ span ∈ second.spans := by
  unfold spans append
  simp only [List.map_append, List.flatMap_append, List.mem_append]
  tauto

theorem Program.mem_names_append (first second : Program) (name : Spanned String) :
    name ∈ (first.append second).names ↔ name ∈ first.names ∨ name ∈ second.names := by
  unfold names append
  simp only [List.map_append, List.flatMap_append, List.mem_append]
  tauto

end Bindery
