import Bindery.Program

set_option autoImplicit false

/-! Declarations and errors moved to the right. All places within them move by one distance, those
of the parts of an expression with it. -/

namespace Bindery

/-- Moving keeps the order of bounds, so a span that covers two others still does. -/
theorem Span.shift_join (distance : Nat) (left right : Span) :
    (left.join right).shift distance = (left.shift distance).join (right.shift distance) := by
  unfold join shift
  rw [Nat.add_min_add_right, Nat.add_max_add_right]

namespace Expr

mutual

def shift (distance : Nat) : Expr → Expr
  | .integer value span => .integer value (span.shift distance)
  | .float value span => .float value (span.shift distance)
  | .boolean value span => .boolean value (span.shift distance)
  | .string value span => .string value (span.shift distance)
  | .identifier name span => .identifier name (span.shift distance)
  | .binary left operator right span =>
      .binary (left.shift distance) operator (right.shift distance) (span.shift distance)
  | .call callee arguments span =>
      .call (callee.shift distance) (shiftAll distance arguments) (span.shift distance)
  | .argument label value span => .argument label (value.shift distance) (span.shift distance)

def shiftAll (distance : Nat) : List Expr → List Expr
  | [] => []
  | expr :: rest => expr.shift distance :: shiftAll distance rest

end

theorem shiftAll_eq_map (distance : Nat) (exprs : List Expr) :
    shiftAll distance exprs = exprs.map (shift distance) := by
  induction exprs with
  | nil => rfl
  | cons expr rest ih => rw [shiftAll, ih, List.map_cons]

theorem span_shift (distance : Nat) (expr : Expr) :
    (expr.shift distance).span = expr.span.shift distance := by
  cases expr <;> rw [shift, span, span]

theorem shift_combine (distance : Nat) (left : Expr) (operator : Operator) (right : Expr) :
    (combine left operator right).shift distance =
      combine (left.shift distance) operator (right.shift distance) := by
  rw [combine, combine, shift, span_shift, span_shift, Span.shift_join]

theorem shift_toArgument (distance : Nat) (expr : Expr) :
    expr.toArgument.shift distance = (expr.shift distance).toArgument := by
  cases expr <;> simp only [toArgument, shift, span]

theorem shift_apply (distance : Nat) (callee : Expr) (arguments : List Expr) (span : Span) :
    (apply callee arguments span).shift distance =
      apply (callee.shift distance) (arguments.map (shift distance)) (span.shift distance) := by
  rw [apply, apply, shift, shiftAll_eq_map, List.map_map, List.map_map]
  congr 1
  apply List.map_congr_left
  intro argument _member
  exact shift_toArgument distance argument

end Expr

def BindingDecl.shift (distance : Nat) (decl : BindingDecl) : BindingDecl :=
  { decl with name := decl.name.shift distance, body := decl.body.shift distance }

def SignatureDecl.shift (distance : Nat) (decl : SignatureDecl) : SignatureDecl :=
  ⟨decl.name.shift distance, decl.fragments.map (Spanned.shift distance)⟩

def Field.shift (distance : Nat) (field : Field) : Field :=
  ⟨field.name.shift distance, field.type.shift distance⟩

def TypeDecl.shift (distance : Nat) (decl : TypeDecl) : TypeDecl :=
  { decl with
    name := decl.name.shift distance
    fields := decl.fields.map (Field.shift distance) }

def Program.shift (distance : Nat) (program : Program) : Program where
  imports := program.imports.map (Spanned.shift distance)
  bindings := program.bindings.map (BindingDecl.shift distance)
  signatures := program.signatures.map (SignatureDecl.shift distance)
  types := program.types.map (TypeDecl.shift distance)

def SemanticError.shift (distance : Nat) : SemanticError → SemanticError
  | .bindingExists name span first =>
      .bindingExists name (span.shift distance) (first.shift distance)
  | .noSuchBinding name span => .noSuchBinding name (span.map (Span.shift distance))
  | .notExported name => .notExported name
  | .typeExists name span first =>
      .typeExists name (span.shift distance) (first.map (Span.shift distance))
  | .noSuchType name => .noSuchType name
  | .unknownType name span => .unknownType name (span.shift distance)
  | .bindingWithoutName span => .bindingWithoutName (span.shift distance)
  | .bindingWithoutBody name span => .bindingWithoutBody name (span.shift distance)
  | .functionField name span => .functionField name (span.shift distance)
  | .invalidLiteral kind text span => .invalidLiteral kind text (span.shift distance)

end Bindery
