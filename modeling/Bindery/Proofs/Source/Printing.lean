import Bindery.Proofs.Number.Writing
import Bindery.Proofs.Source.Pointing
import Bindery.Proofs.Source.Sites

set_option autoImplicit false

/-! The two ways to write an expression. A source is written word by word, with a blank wherever the
text so far asks for one; an expression has blanks and commas in fixed places. For literals in the
form in which values are printed, the expression read from a source has the text that was written,
brackets apart. -/

namespace Bindery

/-! ### Texts without places -/

mutual

theorem Expr.render_unplaced : (expr : Expr) → expr.unplaced.render = expr.render
  | .integer .. | .float .. | .boolean .. | .string .. | .identifier .. => rfl
  | .binary left operator right _ => by
      rw [Expr.unplaced, Expr.render, Expr.render, left.render_unplaced, right.render_unplaced]
  | .call callee arguments _ => by
      rw [Expr.unplaced, Expr.render, Expr.render, callee.render_unplaced,
        Expr.renderAll_unplacedAll arguments]
  | .argument (some _) value _ | .argument none value _ => by
      rw [Expr.unplaced, Expr.render, Expr.render, value.render_unplaced]

theorem Expr.renderAll_unplacedAll : (exprs : List Expr) →
    Expr.renderAll (Expr.unplacedAll exprs) = Expr.renderAll exprs
  | [] => rfl
  | expr :: rest => by
      rw [Expr.unplacedAll, Expr.renderAll, Expr.renderAll, expr.render_unplaced,
        Expr.renderAll_unplacedAll rest]

end

namespace Source

mutual

/-- A term without its brackets. -/
def Term.withoutParens : Term → Term
  | .integer text => .integer text
  | .float text => .float text
  | .string value => .string value
  | .boolean value => .boolean value
  | .identifier name => .identifier name
  | .binary left operator right => .binary left.withoutParens operator right.withoutParens
  | .paren inner => inner.withoutParens
  | .call callee arguments => .call callee.withoutParens (Term.withoutParensAll arguments)

def Term.withoutParensAll : List (Option String × Term) → List (Option String × Term)
  | [] => []
  | (label, value) :: rest => (label, value.withoutParens) :: Term.withoutParensAll rest

end

mutual

/-- Operators that are known and literals in the form in which their values are printed. An
identifier is not empty and ends in no character that a word may follow without a blank. -/
def Term.Canonical : Term → Prop
  | .integer text => ∃ value, text = Number.writeInteger value
  | .float text => ∃ value, Number.Binary64.read? text = some value ∧ text = value.write
  | .string value => ∀ c ∈ value.toList, Text.escapeChar c = [c]
  | .boolean _ => True
  | .identifier name => ∃ c, name.toList.getLast? = some c ∧ c ∉ ['\n', ' ', '(', '\'']
  | .binary left operator right =>
      operator ∈ ['+', '-', '*', '/'] ∧ left.Canonical ∧ right.Canonical
  | .paren inner => inner.Canonical
  | .call callee arguments => callee.Canonical ∧ Term.CanonicalAll arguments

def Term.CanonicalAll : List (Option String × Term) → Prop
  | [] => True
  | (_, value) :: rest => value.Canonical ∧ Term.CanonicalAll rest

end

/-! ### The ends of texts -/

theorem isOpenEnded_eq_false_iff {text : String} :
    Draft.isOpenEnded text = false ↔
      ∃ c, text.toList.getLast? = some c ∧ c ∉ ['\n', ' ', '(', '\''] := by
  unfold Draft.isOpenEnded
  cases text.toList.getLast? with
  | none => simp only [Bool.true_eq_false, reduceCtorEq, false_and, exists_false]
  | some c => simp [and_assoc]

theorem isOpenEnded_append_eq_false (before : String) {text : String}
    (closed : Draft.isOpenEnded text = false) : Draft.isOpenEnded (before ++ text) = false := by
  rw [isOpenEnded_eq_false_iff] at closed ⊢
  obtain ⟨c, last, plain⟩ := closed
  refine ⟨c, ?_, plain⟩
  rw [String.toList_append, List.getLast?_append, last]
  rfl

theorem isOpenEnded_of_numeric {text : String} (nonempty : text ≠ "")
    (numeric : ∀ c ∈ text.toList, Number.Numeric c) : Draft.isOpenEnded text = false := by
  rw [isOpenEnded_eq_false_iff]
  have some_ : text.toList ≠ [] := by
    rwa [ne_eq, String.toList_eq_nil_iff]
  refine ⟨text.toList.getLast some_, List.getLast?_eq_some_getLast some_, ?_⟩
  intro breaks
  have plain : ['\n', ' ', '(', '\''].any (fun c => decide (Number.Numeric c)) = false := by decide
  exact List.any_eq_false.mp plain _ breaks (decide_eq_true (numeric _ (List.getLast_mem some_)))

theorem isOpenEnded_bracket (before : String) : Draft.isOpenEnded (before ++ "(") = true := by
  unfold Draft.isOpenEnded
  rw [String.toList_append, List.getLast?_append]
  rfl

theorem after_gap_of_closed {before : String} (closed : Draft.isOpenEnded before = false) :
    Layout.gap.after before = before ++ " " := by
  simp [Layout.after, Layout.gap, closed, Syntax.Forest.text, Syntax.Tree.text]

theorem after_gap_of_open {before : String} (openEnded : Draft.isOpenEnded before = true) :
    Layout.gap.after before = before := by
  simp [Layout.after, Layout.gap, openEnded, Syntax.Forest.text]

/-! ### Leaves -/

theorem render_integer {text : String} {value : Int64}
    (written : text = Number.writeInteger value) :
    Number.writeInteger ((Number.readInteger? text).getD 0) = text ∧
      Draft.isOpenEnded text = false := by
  have read := Number.readInteger?_writeInteger value
  rw [written]
  refine ⟨by rw [read, Option.getD_some], isOpenEnded_of_numeric ?_ ?_⟩
  · intro empty
    rw [empty] at read
    cases read
  · exact Number.numeric_writeInteger value

theorem render_float {text : String} {value : Number.Binary64}
    (read : Number.Binary64.read? text = some value) (written : text = value.write) :
    ((Number.Binary64.read? text).getD .zero).write = text ∧ Draft.isOpenEnded text = false := by
  refine ⟨by rw [read, Option.getD_some, written], isOpenEnded_of_numeric ?_ ?_⟩
  · rintro rfl
    cases read
  · rw [written]
    exact value.numeric_write

theorem quote_of_unescaped {value : String} (plain : ∀ c ∈ value.toList, Text.escapeChar c = [c]) :
    Text.quote value = "\"" ++ value ++ "\"" := by
  have same : value.toList.flatMap Text.escapeChar = value.toList :=
    (List.flatMap_congr plain).trans (List.flatMap_singleton' _)
  apply String.toList_inj.mp
  rw [Text.quote, same, String.toList_ofList, String.toList_append, String.toList_append]
  rfl

theorem symbol_of_ofSymbol? {text : String} {operator : Operator}
    (known : Operator.ofSymbol? text = some operator) : operator.symbol = text := by
  unfold Operator.ofSymbol? at known
  grind [Operator.symbol]

theorem isOpenEnded_symbol (operator : Operator) : Draft.isOpenEnded operator.symbol = false := by
  cases operator <;> rfl

/-! ### Lists -/

/-- Texts with commas between them, and one before the first if something stands before it. -/
def listed (isFirst : Bool) : List String → String
  | [] => ""
  | text :: rest => (if isFirst then "" else ", ") ++ text ++ listed false rest

theorem listed_eq_intercalate (texts : List String) :
    listed true texts = String.intercalate ", " texts := by
  induction texts with
  | nil => rw [listed, String.intercalate_nil]
  | cons text rest ih =>
      cases rest with
      | nil => simp [listed]
      | cons second others =>
          rw [String.intercalate_cons_cons, ← ih]
          simp [listed, String.append_assoc]

/-- A separator and the blank before the next word. -/
theorem after_gap_separator {isFirst : Bool} {before : String}
    (opened : isFirst = true → Draft.isOpenEnded before = true) :
    Layout.gap.after ((separator isFirst (.raw .comma ",")).after before) =
      before ++ if isFirst then "" else ", " := by
  cases isFirst with
  | true =>
      rw [separator, if_pos rfl, Layout.after_nothing, after_gap_of_open (opened rfl), if_pos rfl,
        String.append_empty]
  | false =>
      have closed : Draft.isOpenEnded (before ++ ",") = false := isOpenEnded_append_eq_false _ rfl
      rw [separator, if_neg Bool.false_ne_true, Layout.after_raw, after_gap_of_closed closed,
        String.append_assoc]
      rfl

/-! ### Terms -/

theorem after_leaf (kind token : Syntax.Kind) (text before : String) :
    (Layout.node kind (.word token text)).after before = Layout.gap.after before ++ text := by
  rw [Layout.after_node, Layout.after_word]

mutual

/-- A term without its brackets is written behind the text so far as its expression is, and after a
blank if the text asks for one. -/
theorem Term.after_withoutParens (before : String) : (term : Term) → (expr : Expr) →
    term.Canonical → term.meaning? = some expr →
      term.withoutParens.layout.after before = Layout.gap.after before ++ expr.render ∧
        Draft.isOpenEnded expr.render = false
  | .integer text, expr, canonical, stands => by
      rw [Term.Canonical] at canonical
      obtain ⟨value, written⟩ := canonical
      obtain ⟨same, closed⟩ := render_integer written
      rw [Term.meaning?] at stands
      rw [← Option.some.inj stands, Expr.render, same, Term.withoutParens]
      exact ⟨after_leaf .intLiteral .integer text before, closed⟩
  | .float text, expr, canonical, stands => by
      rw [Term.Canonical] at canonical
      obtain ⟨value, read, written⟩ := canonical
      obtain ⟨same, closed⟩ := render_float read written
      rw [Term.meaning?] at stands
      rw [← Option.some.inj stands, Expr.render, same, Term.withoutParens]
      exact ⟨after_leaf .floatLiteral .float text before, closed⟩
  | .string value, expr, canonical, stands => by
      rw [Term.Canonical] at canonical
      rw [Term.meaning?] at stands
      rw [← Option.some.inj stands, Expr.render, quote_of_unescaped canonical, Term.withoutParens]
      exact ⟨after_leaf .stringLiteral .string _ before, isOpenEnded_append_eq_false _ rfl⟩
  | .boolean value, expr, _canonical, stands => by
      rw [Term.meaning?] at stands
      rw [← Option.some.inj stands, Expr.render, Term.withoutParens]
      refine ⟨after_leaf .boolLiteral .boolean _ before, ?_⟩
      cases value <;> rfl
  | .identifier name, expr, canonical, stands => by
      rw [Term.Canonical, ← isOpenEnded_eq_false_iff] at canonical
      rw [Term.meaning?] at stands
      rw [← Option.some.inj stands, Expr.render, Term.withoutParens]
      exact ⟨after_leaf .identExpr .identifier name before, canonical⟩
  | .binary left operator right, expr, canonical, stands => by
      obtain ⟨symbol, known, first, firstStands, second, secondStands, same⟩ :=
        Term.meaning?_binary_eq_some stands
      rw [Term.Canonical] at canonical
      obtain ⟨_known, leftCanonical, rightCanonical⟩ := canonical
      have sign := symbol_of_ofSymbol? known
      obtain ⟨leftText, leftClosed⟩ :=
        Term.after_withoutParens before left first leftCanonical firstStands
      obtain ⟨rightText, rightClosed⟩ :=
        Term.after_withoutParens (Layout.gap.after before ++ first.render ++ " " ++ symbol.symbol)
          right second rightCanonical secondStands
      -- Neither a term nor an operator ends in a place for a word, so blanks stand around this one.
      have signClosed : Draft.isOpenEnded
          (Layout.gap.after before ++ first.render ++ " " ++ symbol.symbol) = false :=
        isOpenEnded_append_eq_false _ (isOpenEnded_symbol symbol)
      rw [after_gap_of_closed signClosed] at rightText
      rw [← same, Expr.render, Term.withoutParens, Term.after_binary, leftText, Layout.after_word,
        after_gap_of_closed (isOpenEnded_append_eq_false _ leftClosed), ← sign, rightText]
      refine ⟨?_, isOpenEnded_append_eq_false _ rightClosed⟩
      simp only [String.append_assoc]
  | .paren inner, expr, canonical, stands => by
      rw [Term.Canonical] at canonical
      rw [Term.meaning?] at stands
      rw [Term.withoutParens]
      exact Term.after_withoutParens before inner expr canonical stands
  | .call callee arguments, expr, canonical, stands => by
      obtain ⟨function, calleeStands, values, valuesStand, same⟩ :=
        Term.meaning?_call_eq_some stands
      rw [Term.Canonical] at canonical
      obtain ⟨calleeCanonical, argumentsCanonical⟩ := canonical
      obtain ⟨calleeText, _closed⟩ :=
        Term.after_withoutParens before callee function calleeCanonical calleeStands
      -- Behind the bracket the first argument stands without a blank.
      have inside := Term.after_argumentsWithoutParens true
        (Layout.gap.after before ++ function.render ++ "(") arguments values argumentsCanonical
        valuesStand fun _ => isOpenEnded_bracket _
      rw [listed_eq_intercalate] at inside
      rw [← same, Expr.render, Term.withoutParens, Term.after_call, calleeText, Layout.after_raw,
        Layout.after_raw, inside]
      refine ⟨?_, isOpenEnded_append_eq_false _ rfl⟩
      simp only [String.append_assoc]

theorem Term.after_argumentsWithoutParens (isFirst : Bool) (before : String) :
    (arguments : List (Option String × Term)) → (values : List Expr) →
      Term.CanonicalAll arguments → Term.argumentMeanings? arguments = some values →
        (isFirst = true → Draft.isOpenEnded before = true) →
          (Term.contentAll (Term.withoutParensAll arguments) isFirst).after before =
            before ++ listed isFirst (Expr.renderAll values)
  | [], values, _canonical, stand, _opened => by
      rw [Term.argumentMeanings?] at stand
      rw [← Option.some.inj stand, Term.withoutParensAll, Term.contentAll, Layout.after_nothing,
        Expr.renderAll, listed, String.append_empty]
  | (label, value) :: rest, values, canonical, stand, opened => by
      obtain ⟨first, firstStands, others, othersStand, same⟩ :=
        Term.argumentMeanings?_cons_eq_some stand
      rw [Term.CanonicalAll] at canonical
      have start := after_gap_separator opened
      have own : ((labelLayout label).next value.withoutParens.layout).after
          ((separator isFirst (.raw .comma ",")).after before) =
            before ++ (if isFirst then "" else ", ") ++
              (Expr.argument label first .nowhere).render := by
        rw [Layout.after_next, ← start]
        cases label with
        | none =>
            rw [labelLayout, Layout.after_nothing, Expr.render]
            exact (Term.after_withoutParens _ value first canonical.1 firstStands).1
        | some name =>
            have closed (text : String) : Draft.isOpenEnded (text ++ ":") = false :=
              isOpenEnded_append_eq_false _ rfl
            rw [labelLayout, Layout.after_next, Layout.after_word, Layout.after_raw,
              (Term.after_withoutParens _ value first canonical.1 firstStands).1,
              after_gap_of_closed (closed _), Expr.render]
            simp only [String.append_assoc]
            rfl
      have othersText := Term.after_argumentsWithoutParens false
        (before ++ (if isFirst then "" else ", ") ++ (Expr.argument label first .nowhere).render)
        rest others canonical.2 othersStand fun impossible => by cases impossible
      rw [← same, Expr.renderAll, listed, Term.withoutParensAll, Term.after_arguments,
        Layout.after_node, own, othersText]
      simp only [String.append_assoc]

end

/-! ### Canonical terms -/

mutual

theorem Term.operatorsKnown_of_canonical : (term : Term) → term.Canonical →
    term.operatorsKnown = true
  | .integer _, _ | .float _, _ | .string _, _ | .boolean _, _ | .identifier _, _ => rfl
  | .binary left operator right, canonical => by
      rw [Term.Canonical] at canonical
      rw [Term.operatorsKnown, List.contains_iff_mem.mpr canonical.1,
        left.operatorsKnown_of_canonical canonical.2.1,
        right.operatorsKnown_of_canonical canonical.2.2]
      rfl
  | .paren inner, canonical => by
      rw [Term.Canonical] at canonical
      rw [Term.operatorsKnown, inner.operatorsKnown_of_canonical canonical]
  | .call callee arguments, canonical => by
      rw [Term.Canonical] at canonical
      rw [Term.operatorsKnown, callee.operatorsKnown_of_canonical canonical.1,
        Term.operatorsKnownAll_of_canonical arguments canonical.2]
      rfl

theorem Term.operatorsKnownAll_of_canonical : (arguments : List (Option String × Term)) →
    Term.CanonicalAll arguments → Term.operatorsKnownAll arguments = true
  | [], _ => rfl
  | (_, value) :: rest, canonical => by
      rw [Term.CanonicalAll] at canonical
      rw [Term.operatorsKnownAll, value.operatorsKnown_of_canonical canonical.1,
        Term.operatorsKnownAll_of_canonical rest canonical.2]
      rfl

end

mutual

/-- What is printed can be read. -/
theorem Term.problems_of_canonical : (term : Term) → term.Canonical → term.problems = []
  | .integer text, canonical => by
      rw [Term.Canonical] at canonical
      obtain ⟨value, rfl⟩ := canonical
      rw [Term.problems, Collection.integerFaults, Number.readInteger?_writeInteger]
      rfl
  | .float text, canonical => by
      rw [Term.Canonical] at canonical
      obtain ⟨value, read, _written⟩ := canonical
      rw [Term.problems, Collection.floatFaults, read]
      rfl
  | .string _, _ | .boolean _, _ | .identifier _, _ => rfl
  | .binary left operator right, canonical => by
      rw [Term.Canonical] at canonical
      rw [Term.problems, left.problems_of_canonical canonical.2.1,
        right.problems_of_canonical canonical.2.2]
      rfl
  | .paren inner, canonical => by
      rw [Term.Canonical] at canonical
      rw [Term.problems, inner.problems_of_canonical canonical]
  | .call callee arguments, canonical => by
      rw [Term.Canonical] at canonical
      rw [Term.problems, callee.problems_of_canonical canonical.1,
        Term.problemsAll_of_canonical arguments canonical.2]
      rfl

theorem Term.problemsAll_of_canonical : (arguments : List (Option String × Term)) →
    Term.CanonicalAll arguments → Term.problemsAll arguments = []
  | [], _ => rfl
  | (_, value) :: rest, canonical => by
      rw [Term.CanonicalAll] at canonical
      rw [Term.problemsAll, value.problems_of_canonical canonical.1,
        Term.problemsAll_of_canonical rest canonical.2]
      rfl

end

/-! ### Programs -/

/-- A source that is built has no problems and gives what its declarations stand for. -/
theorem declared_of_built {decls : List Decl} {program : Program}
    (built : Program.ofTree (tree decls) = .ok program) :
    (∀ decl ∈ decls, decl.problems Term.lastOperand? = []) ∧
      program.unplaced = declared Term.lastOperand? decls := by
  by_cases fine : decls.flatMap (Decl.problems Term.lastOperand?) = []
  · obtain ⟨other, same, declares⟩ := ofTree_tree_of_no_problems decls fine
    obtain rfl := Except.ok.inj (built.symm.trans same)
    exact ⟨List.flatMap_eq_nil_iff.mp fine, declares⟩
  · obtain ⟨errors, refused⟩ := ofTree_tree_of_problems decls fine
    cases built.symm.trans refused

/-- A declaration without problems declares a binding if it has a body. -/
theorem Decl.isSome_binding? {bodyOf : Term → Option Expr} (decl : Decl)
    (fine : decl.problems bodyOf = []) : (decl.binding? bodyOf).isSome = decl.body?.isSome := by
  cases decl with
  | bringIn path => rfl
  | binding exported identifiers body =>
      have complete := (List.append_eq_nil_iff.mp fine).2
      cases identifiers with
      | nil => cases complete
      | cons name parameters =>
          cases body with
          | none => rfl
          | some term =>
              rw [Option.bind_some] at complete
              rw [Decl.binding?, Option.isSome_map]
              cases own : bodyOf term with
              | none =>
                  rw [own] at complete
                  cases complete
              | some expr => rfl
  | signature name type => rfl
  | typeDefinition exported name fields => rfl

/-- A binding stands in the program behind those of the declarations in front of it. -/
theorem binding_of_built {front back : List Decl} {exported : Bool} {name : String}
    {parameters : List String} {term : Term} {expr : Expr} {program : Program}
    (stands : term.lastOperand? = some expr)
    (built : Program.ofTree
      (tree (front ++ .binding exported (name :: parameters) (some term) :: back)) = .ok program) :
    ∃ earlier binding later, program.bindings = earlier ++ binding :: later ∧
      earlier.length = (front.filterMap Decl.body?).length ∧
        binding.unplaced = ⟨nameOf name, parameters, expr, exported⟩ := by
  obtain ⟨fine, same⟩ := declared_of_built built
  have bindings : program.bindings.map BindingDecl.unplaced =
      (front ++ .binding exported (name :: parameters) (some term) :: back).filterMap
        (Decl.binding? Term.lastOperand?) := congrArg Program.bindings same
  have own : (Decl.binding exported (name :: parameters) (some term)).binding? Term.lastOperand? =
      some ⟨nameOf name, parameters, expr, exported⟩ := by
    rw [Decl.binding?, stands, Option.map_some]
  rw [List.filterMap_append, List.filterMap_cons_some own, List.map_eq_append_iff] at bindings
  obtain ⟨earlier, rest, split, earlierSame, restSame⟩ := bindings
  obtain ⟨binding, later, rfl, bindingSame, _later⟩ := List.map_eq_cons_iff.mp restSame
  refine ⟨earlier, binding, later, split, ?_, bindingSame⟩
  rw [← List.length_map BindingDecl.unplaced, earlierSame, List.length_filterMap_eq_countP,
    List.length_filterMap_eq_countP]
  apply List.countP_congr
  intro decl member
  rw [decl.isSome_binding? (fine decl (List.mem_append_left _ member))]

theorem text_binding (exported : Bool) (identifiers : List String) (body : Option Term) :
    (tree [.binding exported identifiers body]).text =
      (bodyLayout body).after (bodyStart exported identifiers "") := by
  rw [text_tree, declsLayout, Layout.after_next, Layout.after_next, declsLayout,
    Layout.after_nothing, after_binding]
  rfl

/-- A body starts behind an equals sign. -/
theorem exists_bodyStart (exported : Bool) (identifiers : List String) (before : String) :
    ∃ head, bodyStart exported identifiers before = head ++ "=" :=
  ⟨_, Layout.after_word .equals "=" _⟩

/-- A binding alone is built if there is nothing wrong with its body. -/
theorem exists_built {exported : Bool} {name : String} {parameters : List String} {term : Term}
    {expr : Expr} (stands : term.lastOperand? = some expr) (fine : term.problems = []) :
    ∃ program,
      Program.ofTree (tree [.binding exported (name :: parameters) (some term)]) = .ok program := by
  have noProblems : [Decl.binding exported (name :: parameters) (some term)].flatMap
      (Decl.problems Term.lastOperand?) = [] := by
    rw [List.flatMap_cons, List.flatMap_nil, Decl.problems, Option.map_some, Option.getD_some, fine,
      Option.bind_some, stands]
    rfl
  obtain ⟨program, built, _declares⟩ := ofTree_tree_of_no_problems _ noProblems
  exact ⟨program, built⟩

/-- The two ways to write an expression agree. Where the body of a binding has known operators and
literals in printed form, the source without the brackets of the body has a text behind its equals
sign; the binding can be built from the source with the brackets, and wherever it is built among
other declarations, the text of its body is that text. -/
theorem written_eq_render (exported : Bool) (name : String) (parameters : List String)
    (term : Term) (canonical : term.Canonical) :
    ∃ head written,
      (∃ tree, render [.binding exported (name :: parameters) none] = .ok (head ++ "=", tree)) ∧
      (∃ tree, render [.binding exported (name :: parameters) (some term.withoutParens)] =
        .ok (head ++ "= " ++ written, tree)) ∧
      (∃ text tree program,
        render [.binding exported (name :: parameters) (some term)] = .ok (text, tree) ∧
          Program.ofTree tree = .ok program) ∧
      ∀ front back text tree program,
        render (front ++ .binding exported (name :: parameters) (some term) :: back) =
          .ok (text, tree) →
        Program.ofTree tree = .ok program →
          ∃ earlier binding later, program.bindings = earlier ++ binding :: later ∧
            earlier.length = (front.filterMap Decl.body?).length ∧
              binding.name.value = name ∧ binding.body.render = written := by
  have known := term.operatorsKnown_of_canonical canonical
  obtain ⟨expr, means⟩ := Option.isSome_iff_exists.mp (term.isSome_meaning?.trans known)
  have stands := (term.lastOperand?_of_known known).trans means
  obtain ⟨head, starts⟩ := exists_bodyStart exported (name :: parameters) ""
  refine ⟨head, expr.render, ?_, ?_, ?_, ?_⟩
  · refine ⟨tree [.binding exported (name :: parameters) none], ?_⟩
    rw [render_eq, text_binding, bodyLayout, Layout.after_nothing, starts]
  · have closed : Draft.isOpenEnded (head ++ "=") = false := isOpenEnded_append_eq_false _ rfl
    have blank : head ++ "=" ++ " " = head ++ "= " := by
      rw [String.append_assoc]
      rfl
    have written := (Term.after_withoutParens (head ++ "=") term expr canonical means).1
    refine ⟨tree [.binding exported (name :: parameters) (some term.withoutParens)], ?_⟩
    rw [render_eq, text_binding, bodyLayout, starts, written, after_gap_of_closed closed, blank]
  · obtain ⟨program, built⟩ := exists_built stands (term.problems_of_canonical canonical)
    exact ⟨_, _, program, render_eq _, built⟩
  · intro front back text tree program rendered built
    rw [render_eq] at rendered
    cases rendered
    obtain ⟨earlier, binding, later, split, place, same⟩ := binding_of_built stands built
    refine ⟨earlier, binding, later, split, place, ?_, ?_⟩
    · exact congrArg (fun decl : BindingDecl => decl.name.value) same
    · rw [← binding.body.render_unplaced]
      exact congrArg (fun decl : BindingDecl => decl.body.render) same

theorem written_eq_render_sample :
    let body : Term := .call (.paren (.call (.identifier "f") []))
      [(some "a", .binary (.paren (.binary (.integer "1") '+' (.integer "-2"))) '*' (.string "s")),
        (none, .float "2.5")]
    body.Canonical ∧
      (tree [.binding true ["x"] (some body.withoutParens)]).text =
        "pub x = f()(a: 1 + -2 * \"s\", 2.5)" ∧
      ∃ text tree program binding, render [.binding true ["x"] (some body)] = .ok (text, tree) ∧
        Program.ofTree tree = .ok program ∧ program.bindings.head? = some binding ∧
          binding.body.render = "f()(a: 1 + -2 * \"s\", 2.5)" := by
  intro body
  have canonical : body.Canonical := by
    have name : (Term.identifier "f").Canonical := ⟨'f', rfl, by decide⟩
    have one : (Term.integer "1").Canonical := ⟨1, by decide⟩
    have minusTwo : (Term.integer "-2").Canonical := ⟨-2, by decide⟩
    have quoted : (Term.string "s").Canonical := by
      change ∀ c ∈ ['s'], Text.escapeChar c = [c]
      exact List.forall_mem_singleton.mpr (by decide)
    have half : (Term.float "2.5").Canonical :=
      ⟨.finite false 1024 ⟨0x4000000000000, by decide⟩, by decide +kernel, by decide +kernel⟩
    exact ⟨⟨name, trivial⟩, ⟨by decide, ⟨by decide, one, minusTwo⟩, quoted⟩, half, trivial⟩
  have plain : (tree [.binding true ["x"] (some body.withoutParens)]).text =
      "pub x = f()(a: 1 + -2 * \"s\", 2.5)" := by decide +kernel
  refine ⟨canonical, plain, ?_⟩
  obtain ⟨head, written, ⟨_, start⟩, ⟨_, whole⟩, ⟨text, tree, program, rendered, built⟩,
    bindings⟩ := written_eq_render true "x" [] body canonical
  obtain ⟨earlier, binding, later, split, place, _name, same⟩ :=
    bindings [] [] text tree program rendered built
  rw [List.eq_nil_of_length_eq_zero place] at split
  refine ⟨text, tree, program, binding, rendered, built, by rw [split]; rfl, same.trans ?_⟩
  rw [render_eq] at start whole
  have headEq : head = "pub x " := by
    have bodiless := (congrArg Prod.fst (Except.ok.inj start)).symm
    exact (String.append_left_inj "=").mp (bodiless.trans (by decide +kernel))
  have wholeEq := (congrArg Prod.fst (Except.ok.inj whole)).symm.trans plain
  rw [headEq] at wholeEq
  exact (String.append_right_inj ("pub x " ++ "= ")).mp (wholeEq.trans (by decide +kernel))

end Source

end Bindery
