import Bindery.Proofs.Source.Declaration
import Bindery.Proofs.Source.Meaning

set_option autoImplicit false

/-! Reading the tree of a source gives its meaning, once places are left out. For every source the
body of a binding is the last operand that its term leaves. If all operators are known, that is the
expression the term stands for. -/

namespace Bindery

open Syntax Source

namespace Source

mutual

theorem Term.unplaced_operandsAfter (before : String) (found : List Expr) : (term : Term) →
    (term.operandsAfter before found).map Expr.unplaced =
      term.operands (found.map Expr.unplaced)
  | .integer _ | .float _ | .string _ | .boolean _ | .identifier _ => by
      rw [Term.operandsAfter, Term.operands, List.map_cons, Expr.unplaced]
  | .binary left operator right => by
      rw [Term.operandsAfter, Term.operands, Collection.unplaced_combineLast,
        Term.unplaced_operandsAfter _ _ right, Term.unplaced_operandsAfter _ _ left]
  | .paren inner => by
      rw [Term.operandsAfter, Term.operands, Term.unplaced_operandsAfter _ _ inner]
  | .call callee arguments => by
      rw [Term.operandsAfter, Term.operands, Collection.unplaced_callLast,
        Term.unplaced_operandsAfterAll _ _ _ arguments, Term.unplaced_operandsAfter _ _ callee]

theorem Term.unplaced_operandsAfterAll (isFirst : Bool) (before : String) (found : List Expr) :
    (arguments : List (Option String × Term)) →
      (Term.operandsAfterAll arguments isFirst before found).map Expr.unplaced =
        Term.operandsAll arguments (found.map Expr.unplaced)
  | [] => rfl
  | (label, value) :: rest => by
      rw [Term.operandsAfterAll, Term.operandsAll, Term.unplaced_operandsAfterAll _ _ _ rest,
        Collection.unplaced_labelLast, Term.unplaced_operandsAfter _ _ value]

end

mutual

theorem Term.unplaced_faults (before : String) : (term : Term) →
    (term.faults before).map SemanticError.unplaced = term.problems
  | .integer text => Collection.unplaced_integerFaults text _
  | .float text => Collection.unplaced_floatFaults text _
  | .string _ | .boolean _ | .identifier _ => rfl
  | .binary left operator right => by
      rw [Term.faults, Term.problems, List.map_append, Term.unplaced_faults _ left,
        Term.unplaced_faults _ right]
  | .paren inner => by
      rw [Term.faults, Term.problems, Term.unplaced_faults _ inner]
  | .call callee arguments => by
      rw [Term.faults, Term.problems, List.map_append, Term.unplaced_faults _ callee,
        Term.unplaced_faultsAll _ _ arguments]

theorem Term.unplaced_faultsAll (isFirst : Bool) (before : String) :
    (arguments : List (Option String × Term)) →
      (Term.faultsAll arguments isFirst before).map SemanticError.unplaced =
        Term.problemsAll arguments
  | [] => rfl
  | (label, value) :: rest => by
      rw [Term.faultsAll, Term.problemsAll, List.map_append, Term.unplaced_faults _ value,
        Term.unplaced_faultsAll _ _ rest]

end

/-! ### Terms that stand for an expression -/

theorem Term.span_of_meaning : (term : Term) → (expr : Expr) → term.meaning? = some expr →
    expr.span = .nowhere
  | .integer _, _, stands | .float _, _, stands | .string _, _, stands | .boolean _, _, stands
  | .identifier _, _, stands => by
      rw [Term.meaning?] at stands
      rw [← Option.some.inj stands, Expr.span]
  | .binary left operator right, expr, stands => by
      obtain ⟨symbol, _known, first, _leftStands, second, _rightStands, same⟩ :=
        Term.meaning?_binary_eq_some stands
      rw [← same, Expr.span]
  | .paren inner, expr, stands => Term.span_of_meaning inner expr stands
  | .call callee arguments, expr, stands => by
      obtain ⟨calleeExpr, _calleeStands, values, _valuesStand, same⟩ :=
        Term.meaning?_call_eq_some stands
      rw [← same, Expr.span]

theorem Term.toArgument_argumentMeanings (arguments : List (Option String × Term))
    (values : List Expr) (stand : Term.argumentMeanings? arguments = some values) :
    values.length = arguments.length ∧ values.map Expr.toArgument = values := by
  induction arguments generalizing values with
  | nil =>
      rw [Term.argumentMeanings?] at stand
      rw [← Option.some.inj stand]
      exact ⟨rfl, rfl⟩
  | cons argument rest ih =>
      obtain ⟨first, _firstStands, others, othersStand, same⟩ :=
        Term.argumentMeanings?_cons_eq_some stand
      obtain ⟨lengthEq, mapEq⟩ := ih others othersStand
      rw [← same, List.length_cons, List.length_cons, List.map_cons, lengthEq, mapEq]
      exact ⟨rfl, rfl⟩

/-- Operands that have no place make a binary expression that has none. -/
theorem combine_nowhere (left : Expr) (operator : Operator) (right : Expr)
    (leftPlace : left.span = .nowhere) (rightPlace : right.span = .nowhere) :
    Expr.combine left operator right = .binary left operator right .nowhere := by
  rw [Expr.combine, leftPlace, rightPlace]
  rfl

theorem callLast_arguments (values : List Expr) (callee : Expr) (span : Span) (found : List Expr)
    (arguments : values.map Expr.toArgument = values) :
    Collection.callLast values.length span (values.reverse ++ callee :: found) =
      .call callee values span :: found := by
  unfold Collection.callLast
  rw [← List.length_reverse, List.drop_left]
  change Expr.apply callee _ _ :: found = _
  rw [List.take_left, List.reverse_reverse, Expr.apply, arguments]

mutual

/-- A term that stands for an expression puts it on top of the operands it finds. -/
theorem Term.operands_of_meaning (found : List Expr) : (term : Term) → (expr : Expr) →
    term.meaning? = some expr → term.operands found = expr :: found
  | .integer _, _, stands | .float _, _, stands | .string _, _, stands | .boolean _, _, stands
  | .identifier _, _, stands => by
      rw [Term.meaning?] at stands
      rw [Term.operands, Option.some.inj stands]
  | .binary left operator right, expr, stands => by
      obtain ⟨symbol, known, first, leftStands, second, rightStands, same⟩ :=
        Term.meaning?_binary_eq_some stands
      rw [Term.operands, known, Term.operands_of_meaning found left first leftStands,
        Term.operands_of_meaning _ right second rightStands, Collection.combineLast,
        combine_nowhere first symbol second (Term.span_of_meaning left first leftStands)
          (Term.span_of_meaning right second rightStands), same]
  | .paren inner, expr, stands => by
      rw [Term.meaning?] at stands
      rw [Term.operands, Term.operands_of_meaning found inner expr stands]
  | .call callee arguments, expr, stands => by
      obtain ⟨calleeExpr, calleeStands, values, valuesStand, same⟩ :=
        Term.meaning?_call_eq_some stands
      obtain ⟨lengthEq, mapEq⟩ := Term.toArgument_argumentMeanings arguments values valuesStand
      rw [Term.operands, Term.operands_of_meaning found callee calleeExpr calleeStands,
        Term.operandsAll_of_meanings _ arguments values valuesStand, ← lengthEq,
        callLast_arguments values calleeExpr _ found mapEq, same]

theorem Term.operandsAll_of_meanings (found : List Expr) :
    (arguments : List (Option String × Term)) → (values : List Expr) →
      Term.argumentMeanings? arguments = some values →
        Term.operandsAll arguments found = values.reverse ++ found
  | [], values, stand => by
      rw [Term.argumentMeanings?] at stand
      rw [← Option.some.inj stand]
      rfl
  | (label, value) :: rest, values, stand => by
      obtain ⟨first, firstStands, others, othersStand, same⟩ :=
        Term.argumentMeanings?_cons_eq_some stand
      rw [Term.operandsAll, Term.operands_of_meaning found value first firstStands,
        Collection.labelLast, Term.operandsAll_of_meanings _ rest others othersStand, ← same,
        List.reverse_cons, List.append_assoc, List.singleton_append]

end

/-- Where all operators are known, the body of a binding is the expression its term stands for. -/
theorem Term.lastOperand?_of_known (term : Term) (known : term.operatorsKnown = true) :
    term.lastOperand? = term.meaning? := by
  rw [← term.isSome_meaning?, Option.isSome_iff_exists] at known
  obtain ⟨expr, stands⟩ := known
  rw [Term.lastOperand?, Term.operands_of_meaning [] term expr stands, stands]
  rfl

/-! ### Declarations -/

mutual

theorem TypeExpr.unplaced_fragments (before : String) : (type : TypeExpr) →
    (type.fragments before).map Spanned.unplaced = type.leaves.map (⟨·, .nowhere⟩)
  | .named _ | .void | .variable _ => rfl
  | .arrow types => TypeExpr.unplaced_fragmentsAll true before types

theorem TypeExpr.unplaced_fragmentsAll (isFirst : Bool) (before : String) :
    (types : List TypeExpr) →
      (TypeExpr.fragmentsAll types isFirst before).map Spanned.unplaced =
        (TypeExpr.leavesAll types).map (⟨·, .nowhere⟩)
  | [] => rfl
  | type :: rest => by
      rw [TypeExpr.fragmentsAll, TypeExpr.leavesAll, List.map_append, List.map_append,
        TypeExpr.unplaced_fragments _ type, TypeExpr.unplaced_fragmentsAll _ _ rest]

end

theorem unplaced_wordAt (name before : String) : (wordAt name before).unplaced = nameOf name :=
  rfl

theorem fragments_eq_of_leaves (type : TypeExpr) (before : String) :
    type.leaves = (type.fragments before).map Spanned.value := by
  have same := congrArg (List.map Spanned.value) (type.unplaced_fragments before)
  rw [List.map_map, List.map_map] at same
  exact ((List.map_id type.leaves).symm.trans same.symm)

theorem unplaced_fieldEntry (field : String × TypeExpr) (before : String) :
    (fieldEntry field before).map Field.unplaced = (fieldMeaning? field).toList := by
  unfold fieldEntry fieldMeaning?
  rw [fragments_eq_of_leaves field.2 (fieldTypeStart field.1 before)]
  rcases field.2.fragments (fieldTypeStart field.1 before) with _ | ⟨type, _ | ⟨second, more⟩⟩
  · rfl
  · rfl
  · rfl

theorem unplaced_fieldFaults (field : String × TypeExpr) (before : String) :
    (fieldFaults field before).map SemanticError.unplaced = fieldProblems field := by
  unfold fieldFaults fieldProblems
  rw [fragments_eq_of_leaves field.2 (fieldTypeStart field.1 before)]
  rcases field.2.fragments (fieldTypeStart field.1 before) with _ | ⟨type, _ | ⟨second, more⟩⟩
  · rfl
  · rfl
  · rfl

theorem unplaced_fieldEntries (fields : List (String × TypeExpr)) (isFirst : Bool)
    (before : String) :
    (fieldEntries fields isFirst before).map Field.unplaced =
      fields.filterMap fieldMeaning? := by
  induction fields generalizing isFirst before with
  | nil => rfl
  | cons field rest ih =>
      rw [fieldEntries, List.map_append, unplaced_fieldEntry, ih, List.filterMap_cons]
      cases fieldMeaning? field <;> rfl

theorem unplaced_fieldsFaults (fields : List (String × TypeExpr)) (isFirst : Bool)
    (before : String) :
    (fieldsFaults fields isFirst before).map SemanticError.unplaced =
      fields.flatMap fieldProblems := by
  induction fields generalizing isFirst before with
  | nil => rfl
  | cons field rest ih =>
      rw [fieldsFaults, List.map_append, unplaced_fieldFaults, ih, List.flatMap_cons]

theorem unplaced_bodyOperands (body : Option Term) (before : String) :
    ((bodyOperands body before).map Expr.unplaced).head? = body.bind Term.lastOperand? := by
  cases body with
  | none => rfl
  | some term =>
      rw [bodyOperands, term.unplaced_operandsAfter before []]
      rfl

theorem unplaced_bodyFaults (body : Option Term) (before : String) :
    (bodyFaults body before).map SemanticError.unplaced = (body.map Term.problems).getD [] := by
  cases body with
  | none => rfl
  | some term => exact term.unplaced_faults before

theorem unplaced_bindingFaults (identifiers : List String) (body : Option Term)
    (before start : String) (span : Span) :
    (bindingFaults (wordsAt identifiers before) (bodyOperands body start) span).map
      SemanticError.unplaced = headProblems identifiers (body.bind Term.lastOperand?) := by
  rw [← unplaced_bodyOperands body start]
  cases identifiers with
  | nil => rfl
  | cons name parameters => cases bodyOperands body start <;> rfl

theorem unplaced_bindingEntry (exported : Bool) (identifiers : List String)
    (body : Option Term) (before start : String) :
    (bindingEntry (wordsAt identifiers before) (bodyOperands body start) exported).map
      BindingDecl.unplaced =
        ((Decl.binding exported identifiers body).binding? Term.lastOperand?).toList := by
  have last := unplaced_bodyOperands body start
  cases identifiers with
  | nil => rfl
  | cons name parameters =>
      cases body with
      | none => rfl
      | some term =>
          rw [Option.bind_some] at last
          rw [Decl.binding?, ← last, wordsAt]
          cases bodyOperands (some term) start with
          | nil => rfl
          | cons expr others =>
              simp [bindingEntry, BindingDecl.unplaced, unplaced_wordAt, map_value_wordsAt]

theorem Decl.unplaced_faults (decl : Decl) (before : String) :
    (decl.faults before).map SemanticError.unplaced = decl.problems Term.lastOperand? := by
  cases decl with
  | bringIn path => rfl
  | binding exported identifiers body =>
      rw [Decl.faults, Decl.problems, List.map_append, unplaced_bodyFaults,
        unplaced_bindingFaults]
  | signature name type => rfl
  | typeDefinition exported name fields => exact unplaced_fieldsFaults fields true _

theorem filterMap_singleton_eq {α β : Type} (choose : α → Option β) (item : α) :
    [item].filterMap choose = (choose item).toList := by
  rw [List.filterMap_cons]
  cases choose item <;> rfl

theorem Decl.unplaced_entries (decl : Decl) (before : String) :
    (decl.entries before).unplaced = declared Term.lastOperand? [decl] := by
  unfold declared
  rw [filterMap_singleton_eq, filterMap_singleton_eq, filterMap_singleton_eq,
    filterMap_singleton_eq]
  cases decl with
  | bringIn path => rfl
  | binding exported identifiers body =>
      rw [← unplaced_bindingEntry exported identifiers body (headStart exported before)
        (bodyStart exported identifiers before)]
      rfl
  | signature name type =>
      rw [Decl.signature?, ← type.unplaced_fragments
        ((Layout.word .colonColon "::").after ((Layout.word .identifier name).after before))]
      rfl
  | typeDefinition exported name fields =>
      rw [Decl.type?, ← unplaced_fieldEntries fields true (fieldsStart exported name before)]
      rfl

theorem declared_append (bodyOf : Term → Option Expr) (first second : List Decl) :
    declared bodyOf (first ++ second) =
      (declared bodyOf first).append (declared bodyOf second) := by
  unfold declared Program.append
  rw [List.filterMap_append, List.filterMap_append, List.filterMap_append,
    List.filterMap_append]

theorem unplaced_faults (decls : List Decl) (isFirst : Bool) (before : String) :
    (faults decls isFirst before).map SemanticError.unplaced =
      decls.flatMap (Decl.problems Term.lastOperand?) := by
  induction decls generalizing isFirst before with
  | nil => rfl
  | cons decl rest ih =>
      rw [faults, List.map_append, decl.unplaced_faults, ih, List.flatMap_cons]

theorem unplaced_entries (decls : List Decl) (isFirst : Bool) (before : String) :
    (entries decls isFirst before).unplaced = declared Term.lastOperand? decls := by
  induction decls generalizing isFirst before with
  | nil => rfl
  | cons decl rest ih =>
      rw [entries, Program.unplaced_append, decl.unplaced_entries, ih, ← declared_append]
      rfl

/-- Reading the tree of a source gives its meaning, whatever its operators are. -/
theorem ofTree_tree_unplaced (decls : List Decl) :
    Program.unplacedResult (Program.ofTree (tree decls)) = meaning Term.lastOperand? decls := by
  rw [ofTree_tree, meaning, ← unplaced_faults decls true "", ← unplaced_entries decls true "",
    List.isEmpty_map]
  cases (faults decls true "").isEmpty <;> rfl

theorem ofTree_tree_of_no_problems (decls : List Decl)
    (fine : decls.flatMap (Decl.problems Term.lastOperand?) = []) :
    ∃ program, Program.ofTree (tree decls) = .ok program ∧
      program.unplaced = declared Term.lastOperand? decls := by
  have read := ofTree_tree_unplaced decls
  simp only [meaning, fine, List.isEmpty_nil, if_true] at read
  cases found : Program.ofTree (tree decls) with
  | ok program =>
      rw [found] at read
      exact ⟨program, rfl, Except.ok.inj read⟩
  | error errors =>
      rw [found] at read
      cases read

theorem ofTree_tree_of_problems (decls : List Decl)
    (faulty : decls.flatMap (Decl.problems Term.lastOperand?) ≠ []) :
    ∃ errors, Program.ofTree (tree decls) = .error errors := by
  have read := ofTree_tree_unplaced decls
  simp only [meaning, List.isEmpty_iff, faulty, if_false] at read
  cases found : Program.ofTree (tree decls) with
  | ok program =>
      rw [found] at read
      cases read
  | error errors => exact ⟨errors, rfl⟩

end Source

end Bindery
