import Bindery.Proofs.Compilation
import Bindery.Proofs.Number.Reading
import Bindery.Proofs.Source.Blame
import Bindery.Proofs.Source.Printing
import Bindery.Proofs.Table.Exports
import Mathlib.Data.List.Forall2

set_option autoImplicit false

/-! Integer literals. One that denotes a 64-bit integer stands for it in the table, and is printed
as its decimal text; any other one is reported where it stands. Whatever is around a literal that
is refused, nothing else is wrong with the binding because of it. -/

namespace Bindery.Source

open Number

/-! ### The numbers in a term -/

mutual

/-- The numbers in a term as they are written, from left to right. -/
def Term.numerals : Term → List (LiteralKind × String)
  | .integer text => [(.integer, text)]
  | .float text => [(.float, text)]
  | .string _ | .boolean _ | .identifier _ => []
  | .binary left _ right => left.numerals ++ right.numerals
  | .paren inner => inner.numerals
  | .call callee arguments => callee.numerals ++ Term.numeralsAll arguments

def Term.numeralsAll : List (Option String × Term) → List (LiteralKind × String)
  | [] => []
  | (_, value) :: rest => value.numerals ++ Term.numeralsAll rest

end

/-- What is wrong with a number, as long as nothing is known about its place. -/
def numeralProblems : LiteralKind × String → List SemanticError
  | (.integer, text) => Collection.integerFaults text .nowhere
  | (.float, text) => Collection.floatFaults text .nowhere

mutual

theorem Term.problems_eq_flatMap : (term : Term) →
    term.problems = term.numerals.flatMap numeralProblems
  | .integer _ | .float _ => (List.append_nil _).symm
  | .string _ | .boolean _ | .identifier _ => rfl
  | .binary left _ right => by
      rw [Term.problems, Term.numerals, List.flatMap_append, left.problems_eq_flatMap,
        right.problems_eq_flatMap]
  | .paren inner => inner.problems_eq_flatMap
  | .call callee arguments => by
      rw [Term.problems, Term.numerals, List.flatMap_append, callee.problems_eq_flatMap,
        Term.problemsAll_eq_flatMap arguments]

theorem Term.problemsAll_eq_flatMap : (arguments : List (Option String × Term)) →
    Term.problemsAll arguments = (Term.numeralsAll arguments).flatMap numeralProblems
  | [] => rfl
  | (_, value) :: rest => by
      rw [Term.problemsAll, Term.numeralsAll, List.flatMap_append, value.problems_eq_flatMap,
        Term.problemsAll_eq_flatMap rest]

end

/-- The texts of integers that are none of 64 bits. -/
def badIntegersOf (numerals : List (LiteralKind × String)) : List String :=
  (numerals.filter fun numeral => numeral.1 = .integer ∧ ¬ IsInteger numeral.2).map Prod.snd

def Term.badIntegers (term : Term) : List String := badIntegersOf term.numerals

/-- A term with known operators and readable floats, whatever its integers are. -/
structure Term.WellFormed (term : Term) : Prop where
  operators : term.operatorsKnown = true
  floats : ∀ text, (LiteralKind.float, text) ∈ term.numerals → (Binary64.read? text).isSome = true

theorem flatMap_numeralProblems {numerals : List (LiteralKind × String)}
    (floats : ∀ text, (LiteralKind.float, text) ∈ numerals →
      (Binary64.read? text).isSome = true) :
    numerals.flatMap numeralProblems =
      (badIntegersOf numerals).map fun text => .invalidLiteral .integer text .nowhere := by
  induction numerals with
  | nil => rfl
  | cons numeral rest ih =>
      have later := ih fun text member => floats text (List.mem_cons_of_mem _ member)
      obtain ⟨kind, text⟩ := numeral
      rw [List.flatMap_cons, later]
      cases kind with
      | integer =>
          rw [numeralProblems, Collection.integerFaults]
          by_cases fine : IsInteger text
          · have skipped : badIntegersOf ((.integer, text) :: rest) = badIntegersOf rest := by
              simp [badIntegersOf, fine]
            rw [if_pos ((isSome_readInteger? text).mpr fine), skipped, List.nil_append]
          · have first : badIntegersOf ((.integer, text) :: rest) = text :: badIntegersOf rest := by
              simp [badIntegersOf, fine]
            rw [if_neg (mt (isSome_readInteger? text).mp fine), first]
            rfl
      | float =>
          have skipped : badIntegersOf ((.float, text) :: rest) = badIntegersOf rest := by
            simp [badIntegersOf]
          rw [numeralProblems, Collection.floatFaults, if_pos (floats text List.mem_cons_self),
            skipped, List.nil_append]

theorem Term.WellFormed.problems_eq {term : Term} (wellFormed : term.WellFormed) :
    term.problems =
      term.badIntegers.map fun text => .invalidLiteral .integer text .nowhere := by
  rw [term.problems_eq_flatMap, flatMap_numeralProblems wellFormed.floats]
  rfl

/-! ### The errors of one binding -/

/-- An error about the text of an integer, which points at it. -/
def RefusesInteger (source literal : String) (error : SemanticError) : Prop :=
  ∃ span, error = .invalidLiteral .integer literal span ∧ Text.slice source span = some literal

theorem refuses_each {source : String} (decls : List Decl) {errors : List SemanticError}
    {literals : List String}
    (same : errors.map SemanticError.unplaced =
      literals.map fun text => .invalidLiteral .integer text .nowhere)
    (points : ∀ error ∈ errors, error.PointsAt source decls) :
    List.Forall₂ (RefusesInteger source) literals errors := by
  induction errors generalizing literals with
  | nil =>
      rw [List.map_nil, eq_comm, List.map_eq_nil_iff] at same
      rw [same]
      exact .nil
  | cons error rest ih =>
      rw [List.forall_mem_cons] at points
      obtain ⟨literal, others, rfl, first, later⟩ := List.map_eq_cons_iff.mp same.symm
      obtain ⟨span, rfl⟩ := SemanticError.eq_invalidLiteral_of_unplaced first.symm
      exact .cons ⟨span, rfl, points.1⟩ (ih later.symm points.2)

theorem problemsOf_ofTree (decls : List Decl) :
    Program.problemsOf (Program.ofTree (tree decls)) = faults decls true "" := by
  rw [ofTree_tree]
  split
  · rename_i fine
    exact (List.isEmpty_iff.mp fine).symm
  · rfl

theorem faults_append (first second : List Decl) (isFirst : Bool) (before : String) :
    faults (first ++ second) isFirst before =
      faults first isFirst before ++
        faults second (isFirst && first.isEmpty) ((declsLayout first isFirst).after before) := by
  induction first generalizing isFirst before with
  | nil =>
      rw [List.nil_append, List.isEmpty_nil, Bool.and_true, declsLayout, Layout.after_nothing]
      rfl
  | cons decl rest ih =>
      rw [List.cons_append, faults, ih, faults, List.append_assoc, List.isEmpty_cons,
        Bool.and_false, Bool.false_and, declsLayout, Layout.after_next, Layout.after_next]
      rfl

variable (exported : Bool) (name : String) (parameters : List String) {body : Term}

/-- A body that is well formed leaves an operand, so its binding is not said to have none. -/
theorem unplaced_faults_of_wellFormed (wellFormed : body.WellFormed) (before : String) :
    ((Decl.binding exported (name :: parameters) (some body)).faults before).map
        SemanticError.unplaced =
      body.badIntegers.map fun text => .invalidLiteral .integer text .nowhere := by
  obtain ⟨expr, means⟩ :=
    Option.isSome_iff_exists.mp (body.isSome_meaning?.trans wellFormed.operators)
  have stands := (body.lastOperand?_of_known wellFormed.operators).trans means
  rw [Decl.unplaced_faults, Decl.problems, Option.map_some, Option.getD_some, Option.bind_some,
    stands, headProblems, List.append_nil, wellFormed.problems_eq]

/-- Among other declarations, a binding with a well-formed body has its own errors between those of
the declarations in front of it and those of the declarations behind it. -/
theorem errors_of_binding (wellFormed : body.WellFormed) (front back : List Decl) :
    let decls := front ++ .binding exported (name :: parameters) (some body) :: back
    ∃ own behind,
      Program.problemsOf (Program.ofTree (tree decls)) =
        Program.problemsOf (Program.ofTree (tree front)) ++ own ++ behind ∧
      behind.map SemanticError.unplaced =
        (Program.problemsOf (Program.ofTree (tree back))).map SemanticError.unplaced ∧
      List.Forall₂ (RefusesInteger (tree decls).text) body.badIntegers own := by
  intro decls
  have split := faults_append front
    (.binding exported (name :: parameters) (some body) :: back) true ""
  rw [faults, ← List.append_assoc] at split
  refine ⟨_, _, (problemsOf_ofTree decls).trans (problemsOf_ofTree front ▸ split), ?_, ?_⟩
  · rw [problemsOf_ofTree, unplaced_faults, unplaced_faults]
  · apply refuses_each decls
      (unplaced_faults_of_wellFormed exported name parameters wellFormed _)
    intro error member
    apply faults_at
    change error ∈ faults (front ++ _) true ""
    rw [split]
    exact List.mem_append_left _ (List.mem_append_right _ member)

/-- A source that cannot be read has the errors of reading it, and no table. -/
theorem ofTree_of_problems (environment : Environment) {tree : Syntax.Tree}
    (faulty : Program.problemsOf (Program.ofTree tree) ≠ []) :
    Table.ofTree environment tree = .error (Program.problemsOf (Program.ofTree tree)) := by
  unfold Table.ofTree
  cases read : Program.ofTree tree with
  | ok program =>
      rw [read] at faulty
      exact absurd rfl faulty
  | error errors => rfl

/-! ### One binding by itself -/

theorem accepted_alone (environment : Environment) (exported : Bool) (identifiers : List String)
    (body : Option Term) :
    (entries [.binding exported identifiers body] true "").Accepted environment := by
  have one : ∀ names operands,
      ((bindingEntry names operands exported).map fun decl => decl.name.value).Nodup := by
    intro names operands
    unfold bindingEntry
    split
    · exact List.nodup_singleton _
    · exact List.nodup_nil
  have bindings : (entries [.binding exported identifiers body] true "").bindings =
      bindingEntry (wordsAt identifiers (headStart exported ""))
        (bodyOperands body (bodyStart exported identifiers "")) exported :=
    List.append_nil _
  constructor
  · exact List.nodup_nil
  · exact List.forall_mem_nil _
  · exact List.forall_mem_nil _
  · rw [bindings]
    exact one _ _
  · exact List.forall_mem_nil _
  · exact List.forall_mem_nil _

/-- A binding by itself is built, or has the errors of reading it. -/
theorem ofTree_alone (environment : Environment) (exported : Bool) (identifiers : List String)
    (body : Option Term) :
    let decls : List Decl := [.binding exported identifiers body]
    Table.ofTree environment (tree decls) =
      if (faults decls true "").isEmpty then
        .ok ((entries decls true "").table environment)
      else .error (faults decls true "") := by
  intro decls
  rw [Table.ofTree, ofTree_tree]
  by_cases fine : (faults decls true "").isEmpty = true
  · rw [if_pos fine, if_pos fine]
    dsimp only
    rw [Program.ofProgram_of_accepted _ _ (accepted_alone environment exported identifiers body)]
  · rw [if_neg fine, if_neg fine]

theorem errorsOf_alone (environment : Environment) (exported : Bool) (identifiers : List String)
    (body : Option Term) :
    Table.errorsOf environment (tree [.binding exported identifiers body]) =
      faults [.binding exported identifiers body] true "" := by
  rw [Table.errorsOf, ofTree_alone]
  by_cases fine : (faults [.binding exported identifiers body] true "").isEmpty = true
  · rw [if_pos fine]
    exact (List.isEmpty_iff.mp fine).symm
  · rw [if_neg fine]

/-- A binding by itself compiles if its body is well formed and has no bad integers. -/
theorem compiles_alone (environment : Environment) (wellFormed : body.WellFormed)
    (fine : body.badIntegers = []) :
    ∃ table, Table.ofTree environment
      (tree [.binding exported (name :: parameters) (some body)]) = .ok table := by
  have none : faults [.binding exported (name :: parameters) (some body)] true "" = [] := by
    have own := unplaced_faults_of_wellFormed exported name parameters wellFormed
      (declStart true "")
    rw [fine, List.map_nil, List.map_eq_nil_iff] at own
    rw [faults, own]
    rfl
  rw [ofTree_alone, none]
  exact ⟨_, rfl⟩

/-- A text is refused as an integer exactly if it is none. -/
theorem refused_iff (environment : Environment) (exported : Bool) (identifiers : List String)
    (literal : String) :
    (∃ span, SemanticError.invalidLiteral .integer literal span ∈
      Table.errorsOf environment (tree [.binding exported identifiers (some (.integer literal))])) ↔
        ¬ IsInteger literal := by
  have head : .invalidLiteral .integer literal .nowhere ∉
      headProblems identifiers ((Term.integer literal).lastOperand?) := by
    cases identifiers with
    | nil => simp [headProblems]
    | cons name parameters => exact List.not_mem_nil
  rw [SemanticError.exists_invalidLiteral_iff, errorsOf_alone, unplaced_faults,
    List.flatMap_singleton, Decl.problems, Option.map_some, Option.getD_some, Option.bind_some,
    List.mem_append, or_iff_left head, Term.problems, Collection.integerFaults,
    ← isSome_readInteger?]
  by_cases fine : (readInteger? literal).isSome = true
  · rw [if_pos fine]
    exact iff_of_false List.not_mem_nil (not_not_intro fine)
  · rw [if_neg fine]
    exact iff_of_true List.mem_cons_self fine

/-! ### Literals that are integers -/

/-- A literal that stands for a value: a binding that has it as body compiles by itself, and
wherever it is compiled among others, the table has the value as its body. -/
structure StandsFor (literal : String) (value : Int64) : Prop where
  alone : ∀ environment exported name parameters, ∃ text tree table,
    render [.binding exported (name :: parameters) (some (.integer literal))] = .ok (text, tree) ∧
      Table.ofTree environment tree = .ok table
  among : ∀ environment exported name parameters front back text tree table,
    render (front ++ .binding exported (name :: parameters) (some (.integer literal)) :: back) =
        .ok (text, tree) →
      Table.ofTree environment tree = .ok table →
        ∃ binding span, table.binding name = .ok binding ∧ binding.parameters = parameters ∧
          binding.exported = exported ∧ binding.body = .integer value span ∧
            binding.body.render = toString value.toInt

theorem standsFor_of_denotes {literal : String} {value : Int64}
    (denotes : Denotes literal.toList value.toInt) : StandsFor literal value := by
  have read := readInteger?_eq_some_iff.mpr denotes
  have stands : (Term.integer literal).lastOperand? = some (.integer value .nowhere) := by
    change some (Expr.integer ((readInteger? literal).getD 0) .nowhere) = _
    rw [read, Option.getD_some]
  have fine : (Term.integer literal).problems = [] := by
    rw [Term.problems, Collection.integerFaults, read]
    rfl
  constructor
  · intro environment exported name parameters
    have wellFormed : (Term.integer literal).WellFormed := by
      refine ⟨rfl, ?_⟩
      intro text impossible
      cases List.mem_singleton.mp impossible
    have noBad : (Term.integer literal).badIntegers = [] := by
      have own := wellFormed.problems_eq
      rw [fine, eq_comm, List.map_eq_nil_iff] at own
      exact own
    obtain ⟨table, compiled⟩ := compiles_alone exported name parameters environment wellFormed
      noBad
    exact ⟨_, _, table, render_eq _, compiled⟩
  · intro environment exported name parameters front back text tree table rendered compiled
    rw [render_eq] at rendered
    cases rendered
    obtain ⟨program, built, accepted, rfl⟩ := Table.ofTree_eq_ok_iff.mp compiled
    obtain ⟨earlier, decl, later, split, _place, same⟩ := binding_of_built stands built
    have nameEq : decl.name.value = name :=
      congrArg (fun decl : BindingDecl => decl.name.value) same
    have bodyEq : decl.body.unplaced = .integer value .nowhere := congrArg BindingDecl.body same
    obtain ⟨span, bodyIs⟩ := Expr.eq_integer_of_unplaced bodyEq
    have listed : Program.signedBinding program.signatures decl ∈
        (program.table environment).bindings.values := by
      change _ ∈ (Program.bindingEntries program.bindings program.signatures).values
      rw [Program.values_bindingEntries accepted.bindingsDistinct, split]
      exact List.mem_map_of_mem (List.mem_append_right _ List.mem_cons_self)
    have found := (accepted.consistent.bindings.find?_eq_some_iff_listed
      accepted.consistent.bindingsNamed name _).mpr ⟨listed, nameEq⟩
    refine ⟨_, span, Table.binding_eq_ok_iff.mpr found, congrArg BindingDecl.parameters same,
      congrArg BindingDecl.exported same, bodyIs, ?_⟩
    change decl.body.render = _
    rw [bodyIs, Expr.render, writeInteger_eq_toString]

/-- An integer literal is taken for what it denotes. The decimal text of a 64-bit integer stands for
the integer, and so does every other text that denotes it; a text is refused exactly if it denotes
none. Where the body of a binding with a name is well formed apart from its integers, the errors of
the binding are those of its bad integers, one for each from left to right, and each points at its
text. They stand between the errors of the declarations in front and those of the declarations
behind, whatever these are, and if there is one, the unit has no table. -/
theorem integer_literals_exact :
    (∀ value : Int64, StandsFor (toString value.toInt) value) ∧
    (∀ literal, (∀ value : Int64, Denotes literal.toList value.toInt → StandsFor literal value) ∧
      ∀ environment exported identifiers, ∃ text tree,
        render [.binding exported identifiers (some (.integer literal))] = .ok (text, tree) ∧
          ((∃ span, .invalidLiteral .integer literal span ∈ Table.errorsOf environment tree) ↔
            ¬ IsInteger literal)) ∧
    ∀ exported name parameters (body : Term), body.WellFormed → ∀ front back,
      ∃ frontText frontTree backText backTree text tree own behind,
        render front = .ok (frontText, frontTree) ∧ render back = .ok (backText, backTree) ∧
        render (front ++ .binding exported (name :: parameters) (some body) :: back) =
          .ok (text, tree) ∧
        Program.problemsOf (Program.ofTree tree) =
          Program.problemsOf (Program.ofTree frontTree) ++ own ++ behind ∧
        behind.map SemanticError.unplaced =
          (Program.problemsOf (Program.ofTree backTree)).map SemanticError.unplaced ∧
        List.Forall₂ (RefusesInteger text) body.badIntegers own ∧
        (body.badIntegers ≠ [] →
          (∀ environment, Table.ofTree environment tree =
            .error (Program.problemsOf (Program.ofTree tree))) ∧
          ∀ configuration before unit after, unit.tree = tree →
            Compilation.tableAmong configuration before unit after = none) := by
  refine ⟨fun value => standsFor_of_denotes (denotes_toString value), ?_, ?_⟩
  · intro literal
    refine ⟨fun value => standsFor_of_denotes, ?_⟩
    intro environment exported identifiers
    exact ⟨_, _, render_eq _, refused_iff environment exported identifiers literal⟩
  · intro exported name parameters body wellFormed front back
    obtain ⟨own, behind, errors, same, refuses⟩ :=
      errors_of_binding exported name parameters wellFormed front back
    refine ⟨_, _, _, _, _, _, own, behind, render_eq front, render_eq back, render_eq _, errors,
      same, refuses, ?_⟩
    intro bad
    have own_ne_nil : own ≠ [] := by
      rintro rfl
      exact bad (List.forall₂_nil_right_iff.mp refuses)
    have faulty : Program.problemsOf (Program.ofTree (tree
        (front ++ .binding exported (name :: parameters) (some body) :: back))) ≠ [] := by
      rw [errors]
      simp [own_ne_nil]
    refine ⟨fun environment => ofTree_of_problems environment faulty, ?_⟩
    intro configuration before unit after treeEq
    rw [Compilation.tableAmong_eq, treeEq, ofTree_of_problems _ faulty]
    rfl

/-- A literal out of range in brackets, one with two signs, and the least integer there is. -/
def sampleNumbers : Term :=
  .call (.identifier "f")
    [(some "a", .paren (.binary (.integer "9223372036854775808") '*' (.float "1.5"))),
      (none, .integer "+-1"), (none, .integer "-9223372036854775808")]

theorem integer_literals_exact_sample :
    sampleNumbers.WellFormed ∧ sampleNumbers.badIntegers = ["9223372036854775808", "+-1"] ∧
      StandsFor "-9223372036854775808" Int64.minValue ∧ StandsFor "+007" 7 ∧
      ∃ text tree first second third,
        render [.binding false ["x"] (some sampleNumbers), .binding false ["y"] none] =
          .ok (text, tree) ∧
        Table.ofTree .prelude tree = .error [first, second, third] ∧
        RefusesInteger text "9223372036854775808" first ∧ RefusesInteger text "+-1" second ∧
        third.unplaced = .bindingWithoutBody "y" .nowhere := by
  have wellFormed : sampleNumbers.WellFormed := by
    refine ⟨by decide, ?_⟩
    intro text member
    have only : text = "1.5" := by
      simpa [sampleNumbers, Term.numerals, Term.numeralsAll] using member
    rw [only]
    decide +kernel
  have bad : sampleNumbers.badIntegers = ["9223372036854775808", "+-1"] := by decide +kernel
  obtain ⟨decimal, others, reported⟩ := integer_literals_exact
  have least : toString Int64.minValue.toInt = "-9223372036854775808" := by decide +kernel
  have seven : Denotes "+007".toList (7 : Int64).toInt :=
    readInteger?_eq_some_iff.mp (by decide)
  refine ⟨wellFormed, bad, least ▸ decimal Int64.minValue, (others "+007").1 7 seven, ?_⟩
  obtain ⟨_, frontTree, _, backTree, text, tree, own, behind, front, back, rendered, errors, same,
    refuses, refused⟩ :=
      reported false "x" [] sampleNumbers wellFormed [] [.binding false ["y"] none]
  rw [render_eq] at front back
  cases front
  cases back
  rw [problemsOf_ofTree, unplaced_faults] at same
  obtain ⟨third, rfl, thirdEq⟩ := List.map_eq_singleton_iff.mp
    (same : _ = [SemanticError.bindingWithoutBody "y" .nowhere])
  have compiled := (refused (by rw [bad]; decide)).1 .prelude
  rw [errors, problemsOf_ofTree []] at compiled
  rw [bad] at refuses
  cases refuses with
  | cons firstRefused others =>
      cases others with
      | cons secondRefused none =>
          cases none
          exact ⟨text, tree, _, _, third, rendered, compiled, firstRefused, secondRefused, thirdEq⟩

end Bindery.Source
