import Bindery.Table

set_option autoImplicit false

/-! Declarations, errors and tables without their places. Two sources that say the same thing at
different places agree once every place is left out. -/

namespace Bindery

def Span.nowhere : Span := ⟨0, 0⟩

def Spanned.unplaced {α : Type} (item : Spanned α) : Spanned α := ⟨item.value, .nowhere⟩

namespace Expr

mutual

def unplaced : Expr → Expr
  | .integer value _ => .integer value .nowhere
  | .float value _ => .float value .nowhere
  | .boolean value _ => .boolean value .nowhere
  | .string value _ => .string value .nowhere
  | .identifier name _ => .identifier name .nowhere
  | .binary left operator right _ => .binary left.unplaced operator right.unplaced .nowhere
  | .call callee arguments _ => .call callee.unplaced (unplacedAll arguments) .nowhere
  | .argument label value _ => .argument label value.unplaced .nowhere

def unplacedAll : List Expr → List Expr
  | [] => []
  | expr :: rest => expr.unplaced :: unplacedAll rest

end

theorem unplacedAll_eq_map (exprs : List Expr) : unplacedAll exprs = exprs.map unplaced := by
  induction exprs with
  | nil => rfl
  | cons expr rest ih => rw [unplacedAll, ih, List.map_cons]

theorem span_unplaced (expr : Expr) : expr.unplaced.span = .nowhere := by
  cases expr <;> rw [unplaced, span]

/-- A binary expression takes its place from its operands, and without theirs it has none. -/
theorem unplaced_combine (left : Expr) (operator : Operator) (right : Expr) :
    (combine left operator right).unplaced = combine left.unplaced operator right.unplaced := by
  rw [combine, combine, unplaced, span_unplaced, span_unplaced]
  rfl

theorem unplaced_toArgument (expr : Expr) :
    expr.toArgument.unplaced = expr.unplaced.toArgument := by
  cases expr <;> simp only [toArgument, unplaced, span]

theorem unplaced_apply (callee : Expr) (arguments : List Expr) (span : Span) :
    (apply callee arguments span).unplaced =
      apply callee.unplaced (arguments.map unplaced) .nowhere := by
  rw [apply, apply, unplaced, unplacedAll_eq_map, List.map_map, List.map_map]
  congr 1
  apply List.map_congr_left
  intro argument _member
  exact unplaced_toArgument argument

theorem eq_integer_of_unplaced {expr : Expr} {value : Int64}
    (same : expr.unplaced = .integer value .nowhere) : ∃ span, expr = .integer value span := by
  cases expr <;> cases same
  exact ⟨_, rfl⟩

end Expr

def BindingDecl.unplaced (decl : BindingDecl) : BindingDecl :=
  { decl with name := decl.name.unplaced, body := decl.body.unplaced }

def SignatureDecl.unplaced (decl : SignatureDecl) : SignatureDecl :=
  ⟨decl.name.unplaced, decl.fragments.map Spanned.unplaced⟩

def Field.unplaced (field : Field) : Field := ⟨field.name.unplaced, field.type.unplaced⟩

def TypeDecl.unplaced (decl : TypeDecl) : TypeDecl :=
  { decl with name := decl.name.unplaced, fields := decl.fields.map Field.unplaced }

def Program.unplaced (program : Program) : Program where
  imports := program.imports.map Spanned.unplaced
  bindings := program.bindings.map BindingDecl.unplaced
  signatures := program.signatures.map SignatureDecl.unplaced
  types := program.types.map TypeDecl.unplaced

/-- The same error at no place. Whether there is a first definition to point at stays. -/
def SemanticError.unplaced : SemanticError → SemanticError
  | .bindingExists name _ _ => .bindingExists name .nowhere .nowhere
  | .noSuchBinding name span => .noSuchBinding name (span.map fun _ => .nowhere)
  | .notExported name => .notExported name
  | .typeExists name _ first => .typeExists name .nowhere (first.map fun _ => .nowhere)
  | .noSuchType name => .noSuchType name
  | .unknownType name _ => .unknownType name .nowhere
  | .bindingWithoutName _ => .bindingWithoutName .nowhere
  | .bindingWithoutBody name _ => .bindingWithoutBody name .nowhere
  | .functionField name _ => .functionField name .nowhere
  | .invalidLiteral kind text _ => .invalidLiteral kind text .nowhere

namespace SemanticError

theorem eq_invalidLiteral_of_unplaced {error : SemanticError} {kind : LiteralKind} {text : String}
    (same : error.unplaced = .invalidLiteral kind text .nowhere) :
    ∃ span, error = .invalidLiteral kind text span := by
  cases error <;> cases same
  exact ⟨_, rfl⟩

theorem exists_invalidLiteral_iff {errors : List SemanticError} {kind : LiteralKind}
    {text : String} :
    (∃ span, .invalidLiteral kind text span ∈ errors) ↔
      .invalidLiteral kind text .nowhere ∈ errors.map unplaced := by
  rw [List.mem_map]
  constructor
  · rintro ⟨span, member⟩
    exact ⟨_, member, rfl⟩
  · rintro ⟨error, member, same⟩
    obtain ⟨span, rfl⟩ := eq_invalidLiteral_of_unplaced same
    exact ⟨span, member⟩

end SemanticError

def Binding.unplaced (binding : Binding) : Binding :=
  { binding with nameSpan := .nowhere, body := binding.body.unplaced }

def Program.unplacedResult :
    Except (List SemanticError) Program → Except (List SemanticError) Program
  | .ok program => .ok program.unplaced
  | .error errors => .error (errors.map SemanticError.unplaced)

/-- The answer to a look-up, without places. -/
def unplacedAnswer {α : Type} (unplace : α → α) : Except SemanticError α → Except SemanticError α
  | .ok value => .ok (unplace value)
  | .error error => .error error.unplaced

end Bindery
