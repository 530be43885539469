import Bindery.Proofs.Source.Reading
import Bindery.Proofs.Unplaced

set_option autoImplicit false

/-! What the declarations of a source mean, read off their structure: the leaves of a type, the
expression that a term stands for, the literals that cannot be read. Nothing here has a place.

A term with an unknown operator stands for no expression. What reading it leaves is said by the
operands, and for all other terms that is the expression they stand for, on top of what was
there. -/

namespace Bindery.Source

/-! ### Types -/

mutual

/-- The types between the arrows of a written type, from left to right; brackets are lost. -/
def TypeExpr.leaves : TypeExpr → List Ty
  | .named name => [.ofName name]
  | .void => [.void]
  | .variable name => [.variable name]
  | .arrow types => TypeExpr.leavesAll types

def TypeExpr.leavesAll : List TypeExpr → List Ty
  | [] => []
  | type :: rest => type.leaves ++ TypeExpr.leavesAll rest

end

/-! ### Expressions -/

mutual

def Term.operatorsKnown : Term → Bool
  | .integer _ | .float _ | .string _ | .boolean _ | .identifier _ => true
  | .binary left operator right =>
      ['+', '-', '*', '/'].contains operator && left.operatorsKnown && right.operatorsKnown
  | .paren inner => inner.operatorsKnown
  | .call callee arguments => callee.operatorsKnown && Term.operatorsKnownAll arguments

def Term.operatorsKnownAll : List (Option String × Term) → Bool
  | [] => true
  | (_, value) :: rest => value.operatorsKnown && Term.operatorsKnownAll rest

end

mutual

/-- The expression that a term stands for. Brackets leave no trace, and the arguments of a call are
argument expressions. A literal that cannot be read stands for zero; it is reported elsewhere. -/
def Term.meaning? : Term → Option Expr
  | .integer text => some (.integer ((Number.readInteger? text).getD 0) .nowhere)
  | .float text => some (.float ((Number.Binary64.read? text).getD .zero) .nowhere)
  | .string value => some (.string value .nowhere)
  | .boolean value => some (.boolean value .nowhere)
  | .identifier name => some (.identifier name .nowhere)
  | .binary left operator right => do
      let symbol ← Operator.ofSymbol? operator.toString
      return .binary (← left.meaning?) symbol (← right.meaning?) .nowhere
  | .paren inner => inner.meaning?
  | .call callee arguments => do
      return .call (← callee.meaning?) (← Term.argumentMeanings? arguments) .nowhere

def Term.argumentMeanings? : List (Option String × Term) → Option (List Expr)
  | [] => some []
  | (label, value) :: rest => do
      return .argument label (← value.meaning?) .nowhere :: (← Term.argumentMeanings? rest)

end

mutual

/-- The literals of a term that cannot be read, from left to right. -/
def Term.problems : Term → List SemanticError
  | .integer text => Collection.integerFaults text .nowhere
  | .float text => Collection.floatFaults text .nowhere
  | .string _ | .boolean _ | .identifier _ => []
  | .binary left _ right => left.problems ++ right.problems
  | .paren inner => inner.problems
  | .call callee arguments => callee.problems ++ Term.problemsAll arguments

def Term.problemsAll : List (Option String × Term) → List SemanticError
  | [] => []
  | (_, value) :: rest => value.problems ++ Term.problemsAll rest

end

mutual

/-- The operands that a term leaves, for those it finds; the last one stands first. -/
def Term.operands : Term → List Expr → List Expr
  | .integer text, found => .integer ((Number.readInteger? text).getD 0) .nowhere :: found
  | .float text, found => .float ((Number.Binary64.read? text).getD .zero) .nowhere :: found
  | .string value, found => .string value .nowhere :: found
  | .boolean value, found => .boolean value .nowhere :: found
  | .identifier name, found => .identifier name .nowhere :: found
  | .binary left operator right, found =>
      Collection.combineLast (Operator.ofSymbol? operator.toString)
        (right.operands (left.operands found))
  | .paren inner, found => inner.operands found
  | .call callee arguments, found =>
      Collection.callLast arguments.length .nowhere
        (Term.operandsAll arguments (callee.operands found))

def Term.operandsAll : List (Option String × Term) → List Expr → List Expr
  | [], found => found
  | (label, value) :: rest, found =>
      Term.operandsAll rest (Collection.labelLast label .nowhere (value.operands found))

end

/-- What becomes the body of a binding: the last operand that the term leaves. -/
def Term.lastOperand? (term : Term) : Option Expr := (term.operands []).head?

/-! ### Declarations -/

def nameOf (name : String) : Spanned String := ⟨name, .nowhere⟩

def Decl.import? : Decl → Option (Spanned String)
  | .bringIn path => some (nameOf path)
  | _ => none

/-- The binding that is declared, where `bodyOf` says what a term stands for. -/
def Decl.binding? (bodyOf : Term → Option Expr) : Decl → Option BindingDecl
  | .binding exported (name :: parameters) (some term) =>
      (bodyOf term).map fun body => ⟨nameOf name, parameters, body, exported⟩
  | _ => none

def Decl.signature? : Decl → Option SignatureDecl
  | .signature name type => some ⟨nameOf name, type.leaves.map (⟨·, .nowhere⟩)⟩
  | _ => none

def fieldMeaning? (field : String × TypeExpr) : Option Field :=
  match field.2.leaves with
  | [type] => some ⟨nameOf field.1, ⟨type, .nowhere⟩⟩
  | _ => none

def Decl.type? : Decl → Option TypeDecl
  | .typeDefinition exported name fields =>
      some ⟨nameOf name, fields.filterMap fieldMeaning?, exported⟩
  | _ => none

/-- A field with more than one leaf has a function type. -/
def fieldProblems (field : String × TypeExpr) : List SemanticError :=
  match field.2.leaves with
  | _ :: _ :: _ => [.functionField field.1 .nowhere]
  | _ => []

/-- What is wrong with the head or the body of a binding, apart from literals. -/
def headProblems (identifiers : List String) (body : Option Expr) : List SemanticError :=
  match identifiers, body with
  | [], _ => [.bindingWithoutName .nowhere]
  | name :: _, none => [.bindingWithoutBody name .nowhere]
  | _ :: _, some _ => []

def Decl.problems (bodyOf : Term → Option Expr) : Decl → List SemanticError
  | .bringIn _ | .signature .. => []
  | .binding _ identifiers body =>
      (body.map Term.problems).getD [] ++ headProblems identifiers (body.bind bodyOf)
  | .typeDefinition _ _ fields => fields.flatMap fieldProblems

def Decl.operatorsKnown : Decl → Bool
  | .binding _ _ (some term) => term.operatorsKnown
  | _ => true

def declared (bodyOf : Term → Option Expr) (decls : List Decl) : Program where
  imports := decls.filterMap Decl.import?
  bindings := decls.filterMap (Decl.binding? bodyOf)
  signatures := decls.filterMap Decl.signature?
  types := decls.filterMap Decl.type?

/-- What a source means: the program that it declares, or all that is wrong with it. -/
def meaning (bodyOf : Term → Option Expr) (decls : List Decl) :
    Except (List SemanticError) Program :=
  let problems := decls.flatMap (Decl.problems bodyOf)
  if problems.isEmpty then .ok (declared bodyOf decls) else .error problems

/-! ### Terms with known operators -/

theorem ofSymbol?_isSome (symbol : Char) :
    (Operator.ofSymbol? symbol.toString).isSome = ['+', '-', '*', '/'].contains symbol := by
  rw [ofSymbol?_toString]
  by_cases plus : symbol = '+'
  · simp [plus]
  by_cases minus : symbol = '-'
  · simp [minus]
  by_cases star : symbol = '*'
  · simp [star]
  by_cases slash : symbol = '/'
  · simp [slash]
  simp [plus, minus, star, slash]

/-- A binary term stands for an expression if its operator is known and both sides do. -/
theorem Term.meaning?_binary_eq_some {left right : Term} {operator : Char} {expr : Expr}
    (stands : (Term.binary left operator right).meaning? = some expr) :
    ∃ symbol, Operator.ofSymbol? operator.toString = some symbol ∧
      ∃ first, left.meaning? = some first ∧ ∃ second, right.meaning? = some second ∧
        .binary first symbol second .nowhere = expr := by
  simpa only [Term.meaning?, Option.bind_eq_bind, Option.bind_eq_some_iff, Option.pure_def,
    Option.some.injEq] using stands

theorem Term.meaning?_call_eq_some {callee : Term} {arguments : List (Option String × Term)}
    {expr : Expr} (stands : (Term.call callee arguments).meaning? = some expr) :
    ∃ function, callee.meaning? = some function ∧
      ∃ values, Term.argumentMeanings? arguments = some values ∧
        .call function values .nowhere = expr := by
  simpa only [Term.meaning?, Option.bind_eq_bind, Option.bind_eq_some_iff, Option.pure_def,
    Option.some.injEq] using stands

theorem Term.argumentMeanings?_cons_eq_some {label : Option String} {value : Term}
    {rest : List (Option String × Term)} {values : List Expr}
    (stand : Term.argumentMeanings? ((label, value) :: rest) = some values) :
    ∃ first, value.meaning? = some first ∧
      ∃ others, Term.argumentMeanings? rest = some others ∧
        .argument label first .nowhere :: others = values := by
  simpa only [Term.argumentMeanings?, Option.bind_eq_bind, Option.bind_eq_some_iff,
    Option.pure_def, Option.some.injEq] using stand

mutual

theorem Term.isSome_meaning? : (term : Term) → term.meaning?.isSome = term.operatorsKnown
  | .integer _ | .float _ | .string _ | .boolean _ | .identifier _ => rfl
  | .binary left operator right => by
      have first := left.isSome_meaning?
      have second := right.isSome_meaning?
      have known := ofSymbol?_isSome operator
      rw [Term.meaning?, Term.operatorsKnown, ← first, ← second, ← known]
      cases Operator.ofSymbol? operator.toString <;> cases left.meaning? <;>
        cases right.meaning? <;> rfl
  | .paren inner => inner.isSome_meaning?
  | .call callee arguments => by
      have first := callee.isSome_meaning?
      have others := Term.isSome_argumentMeanings? arguments
      rw [Term.meaning?, Term.operatorsKnown, ← first, ← others]
      cases callee.meaning? <;> cases Term.argumentMeanings? arguments <;> rfl

theorem Term.isSome_argumentMeanings? : (arguments : List (Option String × Term)) →
    (Term.argumentMeanings? arguments).isSome = Term.operatorsKnownAll arguments
  | [] => rfl
  | (label, value) :: rest => by
      have first := value.isSome_meaning?
      have others := Term.isSome_argumentMeanings? rest
      rw [Term.argumentMeanings?, Term.operatorsKnownAll, ← first, ← others]
      cases value.meaning? <;> cases Term.argumentMeanings? rest <;> rfl

end

end Bindery.Source
