import Bindery.Proofs.Source.Collected

set_option autoImplicit false

/-! Sources with unknown operators. A binary term without a known operator takes two operands and
leaves none, so the terms around it take operands that were not meant for them. Whether a body
remains in the end is a matter of counting: a binding is refused for its body exactly if no operand
is left, and some bodies that stand for no expression leave one. -/

namespace Bindery.Source

/-! ### The number of operands -/

mutual

/-- How many operands there are after a term, for the number that there were before it. -/
def Term.operandCount : Term → Nat → Nat
  | .integer _, count | .float _, count | .string _, count | .boolean _, count
  | .identifier _, count => count + 1
  | .binary left operator right, count =>
      let operands := right.operandCount (left.operandCount count)
      if ['+', '-', '*', '/'].contains operator ∧ 2 ≤ operands then operands - 1
      else operands - 2
  | .paren inner, count => inner.operandCount count
  | .call callee arguments, count =>
      let operands := Term.operandCountAll arguments (callee.operandCount count)
      if arguments.length < operands then operands - arguments.length else operands

def Term.operandCountAll : List (Option String × Term) → Nat → Nat
  | [], count => count
  | (_, value) :: rest, count => Term.operandCountAll rest (value.operandCount count)

end

theorem length_combineLast (symbol : Char) (operands : List Expr) :
    (Collection.combineLast (Operator.ofSymbol? symbol.toString) operands).length =
      if ['+', '-', '*', '/'].contains symbol ∧ 2 ≤ operands.length then operands.length - 1
      else operands.length - 2 := by
  rw [← ofSymbol?_isSome]
  cases Operator.ofSymbol? symbol.toString with
  | none =>
      rw [if_neg (fun both => Bool.false_ne_true both.1)]
      rcases operands with _ | ⟨right, _ | ⟨left, rest⟩⟩
      · rfl
      · rfl
      · rfl
  | some operator =>
      rcases operands with _ | ⟨right, _ | ⟨left, rest⟩⟩
      · rfl
      · rfl
      · rw [if_pos ⟨rfl, Nat.le_add_left 2 rest.length⟩]
        rfl

theorem length_labelLast (label : Option String) (span : Span) (operands : List Expr) :
    (Collection.labelLast label span operands).length = operands.length := by
  cases operands <;> rfl

theorem length_callLast (count : Nat) (span : Span) (operands : List Expr) :
    (Collection.callLast count span operands).length =
      if count < operands.length then operands.length - count else operands.length := by
  have remaining := List.length_drop (l := operands) (i := count)
  unfold Collection.callLast
  cases dropped : operands.drop count with
  | nil =>
      rw [dropped, List.length_nil] at remaining
      rw [if_neg (by omega)]
  | cons callee rest =>
      rw [dropped, List.length_cons] at remaining
      rw [if_pos (by omega), List.length_cons]
      exact remaining

mutual

theorem Term.length_operands (found : List Expr) : (term : Term) →
    (term.operands found).length = term.operandCount found.length
  | .integer _ | .float _ | .string _ | .boolean _ | .identifier _ => by
      rw [Term.operands, Term.operandCount, List.length_cons]
  | .binary left operator right => by
      rw [Term.operands, Term.operandCount, length_combineLast, Term.length_operands _ right,
        Term.length_operands _ left]
  | .paren inner => by
      rw [Term.operands, Term.operandCount, Term.length_operands _ inner]
  | .call callee arguments => by
      rw [Term.operands, Term.operandCount, length_callLast, Term.length_operandsAll _ arguments,
        Term.length_operands _ callee]

theorem Term.length_operandsAll (found : List Expr) : (arguments : List (Option String × Term)) →
    (Term.operandsAll arguments found).length = Term.operandCountAll arguments found.length
  | [] => rfl
  | (label, value) :: rest => by
      rw [Term.operandsAll, Term.operandCountAll, Term.length_operandsAll _ rest,
        length_labelLast, Term.length_operands _ value]

end

theorem Term.lastOperand?_eq_none_iff (term : Term) :
    term.lastOperand? = none ↔ term.operandCount 0 = 0 := by
  have count := term.length_operands []
  rw [List.length_nil] at count
  rw [Term.lastOperand?, List.head?_eq_none_iff, ← List.length_eq_zero_iff, count]

/-! ### Unknown operators outside of calls -/

/-- Whether every operator within a call is known. -/
def Term.callsKnown : Term → Bool
  | .integer _ | .float _ | .string _ | .boolean _ | .identifier _ => true
  | .binary left _ right => left.callsKnown && right.callsKnown
  | .paren inner => inner.callsKnown
  | .call callee arguments => (Term.call callee arguments).operatorsKnown

theorem Term.operandCount_of_known (term : Term) (known : term.operatorsKnown = true)
    (count : Nat) : term.operandCount count = count + 1 := by
  rw [← term.isSome_meaning?, Option.isSome_iff_exists] at known
  obtain ⟨expr, stands⟩ := known
  -- Any operands will do, since only their number matters.
  have counted := term.length_operands (List.replicate count expr)
  rw [Term.operands_of_meaning _ term expr stands, List.length_cons, List.length_replicate]
    at counted
  exact counted.symm

/-- An unknown operator outside of calls leaves no more operands than it found. The terms around it
are binary and may take more, but never add one. -/
theorem Term.operandCount_le (count : Nat) : (term : Term) → term.callsKnown = true →
    term.operandCount count ≤ count + if term.operatorsKnown then 1 else 0
  | .integer _, _ | .float _, _ | .string _, _ | .boolean _, _ | .identifier _, _ =>
      Nat.le_refl _
  | .binary left operator right, calls => by
      rw [Term.callsKnown, Bool.and_eq_true] at calls
      have first := Term.operandCount_le count left calls.1
      have second := Term.operandCount_le (left.operandCount count) right calls.2
      by_cases known : (Term.binary left operator right).operatorsKnown = true
      · rw [if_pos known]
        exact Nat.le_of_eq (Term.operandCount_of_known _ known count)
      · rw [if_neg known, Term.operandCount]
        rw [Term.operatorsKnown, Bool.and_eq_true, Bool.and_eq_true] at known
        by_cases symbol : ['+', '-', '*', '/'].contains operator = true
        · -- The unknown operator is on one of the two sides, which is then an operand short.
          have operands : right.operandCount (left.operandCount count) ≤ count + 1 := by
            by_cases leftKnown : left.operatorsKnown = true
            · have rightUnknown : ¬ right.operatorsKnown = true :=
                fun rightKnown => known ⟨⟨symbol, leftKnown⟩, rightKnown⟩
              rw [if_pos leftKnown] at first
              rw [if_neg rightUnknown] at second
              omega
            · rw [if_neg leftKnown] at first
              split at second <;> omega
          split <;> omega
        · have operands : right.operandCount (left.operandCount count) ≤ count + 2 := by
            split at first <;> split at second <;> omega
          rw [if_neg (fun both => symbol both.1)]
          omega
  | .paren inner, calls => Term.operandCount_le count inner calls
  | .call callee arguments, calls => by
      rw [Term.callsKnown] at calls
      rw [if_pos calls]
      exact Nat.le_of_eq (Term.operandCount_of_known _ calls count)

/-! ### When a source is refused -/

def Decl.Refused : Decl → Prop
  | .bringIn _ | .signature .. => False
  | .binding _ _ none => True
  | .binding _ identifiers (some term) =>
      term.problems ≠ [] ∨ identifiers = [] ∨ term.operandCount 0 = 0
  | .typeDefinition _ _ fields => ∃ field ∈ fields, 2 ≤ field.2.leaves.length

theorem fieldProblems_ne_nil_iff (field : String × TypeExpr) :
    fieldProblems field ≠ [] ↔ 2 ≤ field.2.leaves.length := by
  unfold fieldProblems
  rcases field.2.leaves with _ | ⟨type, _ | ⟨second, more⟩⟩
  · simp
  · simp
  · simp

theorem headProblems_ne_nil_iff (identifiers : List String) (body : Option Expr) :
    headProblems identifiers body ≠ [] ↔ identifiers = [] ∨ body = none := by
  cases identifiers <;> cases body <;> simp [headProblems]

theorem append_ne_nil_iff {α : Type} (first second : List α) :
    first ++ second ≠ [] ↔ first ≠ [] ∨ second ≠ [] := by
  rw [ne_eq, List.append_eq_nil_iff, Classical.not_and_iff_not_or_not]

theorem Decl.problems_ne_nil_iff (decl : Decl) :
    decl.problems Term.lastOperand? ≠ [] ↔ decl.Refused := by
  cases decl with
  | bringIn path => exact ⟨fun faulty => faulty rfl, False.elim⟩
  | binding exported identifiers body =>
      rw [Decl.problems, append_ne_nil_iff, headProblems_ne_nil_iff]
      cases body with
      | none => exact ⟨fun _ => trivial, fun _ => Or.inr (Or.inr rfl)⟩
      | some term =>
          rw [Option.bind_some, term.lastOperand?_eq_none_iff]
          exact Iff.rfl
  | signature name type => exact ⟨fun faulty => faulty rfl, False.elim⟩
  | typeDefinition exported name fields =>
      rw [Decl.problems, ne_eq, List.flatMap_eq_nil_iff, Decl.Refused]
      simp only [← fieldProblems_ne_nil_iff, Classical.not_forall, exists_prop, ne_eq]

theorem meaning_eq_error_iff (decls : List Decl) :
    (∃ errors, meaning Term.lastOperand? decls = .error errors) ↔
      ∃ decl ∈ decls, decl.Refused := by
  have found : decls.flatMap (Decl.problems Term.lastOperand?) ≠ [] ↔
      ∃ decl ∈ decls, decl.Refused := by
    rw [ne_eq, List.flatMap_eq_nil_iff]
    simp only [← Decl.problems_ne_nil_iff, Classical.not_forall, exists_prop, ne_eq]
  rw [← found]
  unfold meaning
  cases decls.flatMap (Decl.problems Term.lastOperand?) with
  | nil =>
      constructor
      · rintro ⟨errors, impossible⟩
        cases impossible
      · intro faulty
        exact absurd rfl faulty
  | cons error rest => exact ⟨fun _ => List.cons_ne_nil _ _, fun _ => ⟨_, rfl⟩⟩

theorem unplacedResult_eq_error_iff (result : Except (List SemanticError) Program) :
    (∃ errors, Program.unplacedResult result = .error errors) ↔
      ∃ errors, result = .error errors := by
  cases result with
  | ok program =>
      constructor
      · rintro ⟨errors, impossible⟩
        cases impossible
      · rintro ⟨errors, impossible⟩
        cases impossible
  | error errors => exact ⟨fun _ => ⟨_, rfl⟩, fun _ => ⟨_, rfl⟩⟩

/-- A source is refused exactly if a declaration of it is, where a body counts as missing once its
operators have used up all operands. So an unknown operator that stands outside of all calls is
always found, but one within a call may not be. -/
theorem unknown_operator_refused_iff (decls : List Decl) :
    ∃ text tree, render decls = .ok (text, tree) ∧
      ((∃ errors, Program.ofTree tree = .error errors) ↔ ∃ decl ∈ decls, decl.Refused) ∧
      ∀ exported identifiers term, .binding exported identifiers (some term) ∈ decls →
        term.operatorsKnown = false → term.callsKnown = true →
          ∃ errors, Program.ofTree tree = .error errors := by
  have refusedIff : (∃ errors, Program.ofTree (tree decls) = .error errors) ↔
      ∃ decl ∈ decls, decl.Refused := by
    rw [← meaning_eq_error_iff, ← ofTree_tree_unplaced, unplacedResult_eq_error_iff]
  refine ⟨(tree decls).text, tree decls, render_eq decls, refusedIff, ?_⟩
  intro exported identifiers term member unknown calls
  have bound := Term.operandCount_le 0 term calls
  rw [unknown] at bound
  exact refusedIff.mpr ⟨_, member, Or.inr (Or.inr (Nat.le_zero.mp bound))⟩

/-- Within a call, the callee stays when an operator has used up its argument, and it is taken for
the body. -/
theorem unknown_operator_accepted :
    ∃ term : Term, term.operatorsKnown = false ∧
      ∃ text tree, render [.binding false ["x"] (some term)] = .ok (text, tree) ∧
        Program.unplacedResult (Program.ofTree tree) =
          .ok ⟨[], [⟨nameOf "x", [], .argument none (.identifier "f" .nowhere) .nowhere, false⟩],
            [], []⟩ := by
  refine ⟨.call (.identifier "f") [(none, .binary (.integer "1") '%' (.integer "2"))], rfl,
    _, _, render_eq _, ?_⟩
  rw [ofTree_tree_unplaced]
  rfl

end Bindery.Source
