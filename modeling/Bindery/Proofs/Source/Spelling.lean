import Bindery.Proofs.Source.Collected
import Bindery.Proofs.Source.Places
import Mathlib.Data.List.Forall2

set_option autoImplicit false

/-! What stands at the places of a program that was read from a source. The fragments of a type
and the leaves of an expression have the text of their tokens. An expression with parts covers
them: operands reach from one end of it to the other, and the callee and the arguments of a call
follow one another in it. Brackets around an expression are not part of its place. -/

namespace Bindery

namespace Source

open Syntax Text

/-! ### Types -/

mutual

/-- The types between the arrows of a written type, each with the text it is written as. -/
def TypeExpr.writings : TypeExpr → List (Ty × String)
  | .named name => [(.ofName name, name)]
  | .void => [(.void, "()")]
  | .variable name => [(.variable name, "'" ++ name)]
  | .arrow types => TypeExpr.writingsAll types

def TypeExpr.writingsAll : List TypeExpr → List (Ty × String)
  | [] => []
  | type :: rest => type.writings ++ TypeExpr.writingsAll rest

end

/-- A fragment of that type, placed where that text stands. -/
def FragmentAt (text : String) (writing : Ty × String) (fragment : Spanned Ty) : Prop :=
  fragment.value = writing.1 ∧ Text.slice text fragment.span = some writing.2

mutual

theorem TypeExpr.fragments_at {text : String} (before : String) : (type : TypeExpr) →
    BeginsWith text (type.layout.after before) →
      List.Forall₂ (FragmentAt text) type.writings (type.fragments before)
  | .named name, begins => by
      rw [TypeExpr.layout, Layout.after_node] at begins
      exact .cons ⟨rfl, slice_word rfl begins⟩ .nil
  | .void, begins => by
      have opens : TypeExpr.void.content.Opens := (Layout.opens_word .leftParen "(" rfl).next _
      have written : TypeExpr.void.content.after before = Layout.gap.after before ++ "()" := by
        rw [TypeExpr.content, Layout.after_next, Layout.after_word, Layout.after_raw,
          String.append_assoc]
        rfl
      rw [TypeExpr.layout, Layout.after_node] at begins
      exact .cons ⟨rfl, opens.slice written begins⟩ .nil
  | .variable name, begins => by
      have opens : (TypeExpr.variable name).content.Opens :=
        (Layout.opens_word .quote "'" rfl).next _
      have written : (TypeExpr.variable name).content.after before =
          Layout.gap.after before ++ ("'" ++ name) := by
        rw [TypeExpr.content, Layout.after_next, Layout.after_word, Layout.after_raw,
          String.append_assoc]
      rw [TypeExpr.layout, Layout.after_node] at begins
      exact .cons ⟨rfl, opens.slice written begins⟩ .nil
  | .arrow types, begins => by
      rw [TypeExpr.layout, Layout.after_node] at begins
      exact TypeExpr.fragmentsAll_at true before types begins

theorem TypeExpr.fragmentsAll_at {text : String} (isFirst : Bool) (before : String) :
    (types : List TypeExpr) → BeginsWith text ((TypeExpr.contentAll types isFirst).after before) →
      List.Forall₂ (FragmentAt text) (TypeExpr.writingsAll types)
        (TypeExpr.fragmentsAll types isFirst before)
  | [], _ => .nil
  | type :: rest, begins => by
      rw [TypeExpr.contentAll, Layout.after_next, Layout.after_next, Layout.after_next,
        Layout.after_next] at begins
      have first := Layout.begins_before (Layout.begins_before begins)
      exact List.rel_append (TypeExpr.fragments_at _ type first)
        (TypeExpr.fragmentsAll_at false _ rest begins)

end

/-! ### Expressions -/

/-- The label of an argument and its colon stand at the beginning of the argument, in front of its
value. -/
def LabelAt (text : String) (span inner : Span) : Option String → Prop
  | none => True
  | some name =>
      Text.slice text ⟨span.start, span.start + (name ++ ":").utf8ByteSize⟩ = some (name ++ ":") ∧
        span.start + (name ++ ":").utf8ByteSize ≤ inner.start

mutual

/-- An expression and the term it was written as, with the places of the expression in the text. -/
inductive Term.PlacedAs (text : String) : Term → Expr → Prop
  | integer {written : String} {value : Int64} {span : Span}
      (token : Text.slice text span = some written) :
      Term.PlacedAs text (.integer written) (.integer value span)
  | float {written : String} {value : Number.Binary64} {span : Span}
      (token : Text.slice text span = some written) :
      Term.PlacedAs text (.float written) (.float value span)
  | string {value : String} {span : Span}
      (token : Text.slice text span = some ("\"" ++ value ++ "\"")) :
      Term.PlacedAs text (.string value) (.string value span)
  | boolean {value : Bool} {span : Span}
      (token : Text.slice text span = some (Text.truth value)) :
      Term.PlacedAs text (.boolean value) (.boolean value span)
  | identifier {name : String} {span : Span} (token : Text.slice text span = some name) :
      Term.PlacedAs text (.identifier name) (.identifier name span)
  | binary {left right : Term} {symbol : Char} {operator : Operator} {first second : Expr}
      {span : Span} (leftPlaced : Term.PlacedAs text left first)
      (rightPlaced : Term.PlacedAs text right second)
      (start_eq : span.start = first.span.start) (stop_eq : span.stop = second.span.stop)
      (leftInside : first.span.Within span) (rightInside : second.span.Within span) :
      Term.PlacedAs text (.binary left symbol right) (.binary first operator second span)
  | paren {inner : Term} {expr : Expr} (innerPlaced : Term.PlacedAs text inner expr) :
      Term.PlacedAs text (.paren inner) expr
  | call {callee : Term} {arguments : List (Option String × Term)} {head : Expr}
      {values : List Expr} {span : Span} (calleePlaced : Term.PlacedAs text callee head)
      (argumentsPlaced : Term.PlacedAsAll text arguments values)
      (inside : ∀ child ∈ head :: values, child.span.Within span)
      (ordered : (head :: values).Pairwise fun first second => first.span.Before second.span) :
      Term.PlacedAs text (.call callee arguments) (.call head values span)

inductive Term.PlacedAsAll (text : String) : List (Option String × Term) → List Expr → Prop
  | nil : Term.PlacedAsAll text [] []
  | cons {label : Option String} {value : Term} {expr : Expr} {span : Span}
      {rest : List (Option String × Term)} {others : List Expr}
      (valuePlaced : Term.PlacedAs text value expr) (labelled : LabelAt text span expr.span label)
      (inside : expr.span.Within span) (restPlaced : Term.PlacedAsAll text rest others) :
      Term.PlacedAsAll text ((label, value) :: rest) (.argument label expr span :: others)

end

theorem Term.PlacedAsAll.shape {text : String} {arguments : List (Option String × Term)}
    {values : List Expr} (placed : Term.PlacedAsAll text arguments values) :
    values.length = arguments.length ∧ values.map Expr.toArgument = values := by
  induction arguments generalizing values with
  | nil =>
      cases placed
      exact ⟨rfl, rfl⟩
  | cons argument rest ih =>
      cases placed with
      | cons valuePlaced labelled inside restPlaced =>
          obtain ⟨lengthEq, mapEq⟩ := ih restPlaced
          rw [List.length_cons, List.length_cons, List.map_cons, lengthEq, mapEq]
          exact ⟨rfl, rfl⟩

/-- What a term leaves: one operand, placed in the text of the term. -/
structure Term.Leaves (text before : String) (found : List Expr) (term : Term) (expr : Expr) :
    Prop where
  operands : term.operandsAfter before found = expr :: found
  placed : term.PlacedAs text expr
  within : expr.span.Within (term.layout.extent before)
  ordered : expr.span.start ≤ expr.span.stop

structure Term.LeavesAll (text before : String) (isFirst : Bool) (found : List Expr)
    (arguments : List (Option String × Term)) (values : List Expr) : Prop where
  operands : Term.operandsAfterAll arguments isFirst before found = values.reverse ++ found
  placed : Term.PlacedAsAll text arguments values
  within : ∀ value ∈ values,
    value.span.Within ((Term.contentAll arguments isFirst).extent before)
  ordered : values.Pairwise fun first second => first.span.Before second.span

section Leaves

variable {text before : String} {found : List Expr}

theorem Term.extent_layout (term : Term) (before : String) :
    term.layout.extent before = term.content.extent before :=
  Layout.extent_node term.kind term.content before

/-- A term whose own node leaves the operand gives it the place of that node. -/
theorem Term.leaves_own {term : Term} {expr : Expr}
    (operands : term.operandsAfter before found = expr :: found)
    (placed : term.PlacedAs text expr) (span : expr.span = term.content.place before) :
    term.Leaves text before found expr where
  operands := operands
  placed := placed
  within := by
    rw [span, term.opens.place, term.extent_layout]
    exact .refl _
  ordered := by
    rw [span, term.opens.place]
    exact term.opens.ordered before

theorem Term.leaves_binary {left right : Term} {symbol : Char} {operator : Operator}
    {first second : Expr} (known : Operator.ofSymbol? symbol.toString = some operator)
    (leftLeaves : left.Leaves text before found first)
    (rightLeaves : right.Leaves text
      ((Layout.word (operatorKind symbol) symbol.toString).after (left.layout.after before))
      (first :: found) second) :
    (Term.binary left symbol right).Leaves text before found
      (.combine first operator second) := by
  let between := Layout.word (operatorKind symbol) symbol.toString
  have whole : (Term.binary left symbol right).layout.extent before =
      (left.layout.next (between.next right.layout)).extent before := Term.extent_layout _ before
  have rightWithin := rightLeaves.within.trans (Layout.within_second between right.layout _)
  have apart : first.span.Before second.span :=
    (Layout.extents_apart left.layout _ before).of_within leftLeaves.within rightWithin
  have joined := apart.join leftLeaves.ordered rightLeaves.ordered
  have leftOrdered := leftLeaves.ordered
  have rightOrdered := rightLeaves.ordered
  unfold Span.Before at apart
  unfold Expr.combine
  rw [joined]
  constructor
  · rw [Term.operandsAfter, known, leftLeaves.operands, rightLeaves.operands,
      Collection.combineLast, Expr.combine, joined]
  · refine .binary leftLeaves.placed rightLeaves.placed rfl rfl ⟨Nat.le_refl _, ?_⟩
      ⟨?_, Nat.le_refl _⟩
    · exact Nat.le_trans apart rightOrdered
    · exact Nat.le_trans leftOrdered apart
  · rw [whole]
    exact ⟨(leftLeaves.within.trans (Layout.within_first _ _ before)).start_le,
      (rightWithin.trans (Layout.within_second left.layout _ before)).stop_le⟩
  · exact Nat.le_trans leftOrdered (Nat.le_trans apart rightOrdered)

theorem Term.leaves_paren {inner : Term} {expr : Expr}
    (innerLeaves : inner.Leaves text ((Layout.word .leftParen "(").after before) found expr) :
    (Term.paren inner).Leaves text before found expr where
  operands := innerLeaves.operands
  placed := .paren innerLeaves.placed
  within := by
    rw [Term.extent_layout]
    exact innerLeaves.within.trans ((Layout.within_first inner.layout _ _).trans
      (Layout.within_second (.word .leftParen "(") _ before))
  ordered := innerLeaves.ordered

theorem Term.leaves_call {callee : Term} {arguments : List (Option String × Term)} {head : Expr}
    {values : List Expr} (calleeLeaves : callee.Leaves text before found head)
    (argumentsLeave : Term.LeavesAll text
      ((Layout.raw .leftParen "(").after (callee.layout.after before)) true (head :: found)
      arguments values) :
    (Term.call callee arguments).Leaves text before found
      (.call head values ((Term.call callee arguments).content.place before)) := by
  obtain ⟨lengthEq, mapEq⟩ := argumentsLeave.placed.shape
  let inBrackets := (Term.contentAll arguments true).next (.raw .rightParen ")")
  let brackets := (Layout.raw .leftParen "(").next inBrackets
  have whole : (Term.call callee arguments).content.place before =
      (callee.layout.next brackets).extent before := (Term.call callee arguments).opens.place before
  have inArguments : ∀ value ∈ values,
      value.span.Within (brackets.extent (callee.layout.after before)) := by
    intro value member
    exact (argumentsLeave.within value member).trans
      ((Layout.within_first _ _ _).trans (Layout.within_second (.raw .leftParen "(") inBrackets _))
  refine Term.leaves_own ?_ ?_ rfl
  · rw [Term.operandsAfter, calleeLeaves.operands, argumentsLeave.operands, ← lengthEq,
      callLast_arguments values head _ found mapEq]
  · rw [whole]
    refine .call calleeLeaves.placed argumentsLeave.placed ?_ ?_
    · rw [List.forall_mem_cons]
      refine ⟨calleeLeaves.within.trans (Layout.within_first _ _ before), ?_⟩
      intro value member
      exact (inArguments value member).trans (Layout.within_second callee.layout _ before)
    · rw [List.pairwise_cons]
      refine ⟨?_, argumentsLeave.ordered⟩
      intro value member
      exact (Layout.extents_apart callee.layout brackets before).of_within calleeLeaves.within
        (inArguments value member)

/-- A label and its colon, as they stand before the value. -/
theorem label_at {label : Option String} {value : Term} {expr : Expr}
    (begins : BeginsWith text (((labelLayout label).next value.layout).after before))
    (within : expr.span.Within (value.layout.extent ((labelLayout label).after before))) :
    LabelAt text (((labelLayout label).next value.layout).extent before) expr.span label := by
  cases label with
  | none => trivial
  | some name =>
      have written : (labelLayout (some name)).after before =
          Layout.gap.after before ++ (name ++ ":") := by
        rw [labelLayout, Layout.after_next, Layout.after_word, Layout.after_raw,
          String.append_assoc]
      have size := congrArg String.utf8ByteSize written
      have valueStart := Nat.le_trans (Layout.size_le_wordStart _) within.start_le
      rw [String.utf8ByteSize_append] at size
      rw [size] at valueStart
      rw [Layout.after_next] at begins
      have labelled := Layout.begins_before begins
      rw [written] at labelled
      exact ⟨labelled.stands.slice, valueStart⟩

/-- An argument and those behind it. The argument starts at `start`, behind the comma. -/
theorem Term.leavesAll_cons {label : Option String} {value : Term}
    {rest : List (Option String × Term)} {isFirst : Bool} {expr : Expr} {others : List Expr}
    {start : String} (startEq : start = (separator isFirst (.raw .comma ",")).after before)
    (begins : BeginsWith text (((labelLayout label).next value.layout).after start))
    (valueLeaves : value.Leaves text ((labelLayout label).after start) found expr)
    (restLeave : Term.LeavesAll text
      ((Layout.node .argument ((labelLayout label).next value.layout)).after start) false
      (.argument label expr (((labelLayout label).next value.layout).place start) :: found)
      rest others) :
    Term.LeavesAll text before isFirst found ((label, value) :: rest)
      (.argument label expr (((labelLayout label).next value.layout).place start) :: others) := by
  subst startEq
  let argument := (labelLayout label).next value.layout
  let between := separator isFirst (.raw .comma ",")
  have place := (opens_argument label value).place (between.after before)
  have inList := Layout.within_second between
    ((Layout.node .argument argument).next (Term.contentAll rest false)) before
  have own : (argument.place (between.after before)).Within
      ((Layout.node .argument argument).extent (between.after before)) := by
    rw [place, Layout.extent_node]
    exact .refl _
  constructor
  · rw [Term.operandsAfterAll, valueLeaves.operands, Collection.labelLast, restLeave.operands,
      List.reverse_cons, List.append_assoc]
    rfl
  · refine .cons valueLeaves.placed ?_ ?_ restLeave.placed
    · rw [place]
      exact label_at begins valueLeaves.within
    · rw [place]
      exact valueLeaves.within.trans (Layout.within_second (labelLayout label) value.layout _)
  · rw [List.forall_mem_cons]
    refine ⟨own.trans ((Layout.within_first _ _ _).trans inList), ?_⟩
    intro other member
    exact (restLeave.within other member).trans
      ((Layout.within_second (Layout.node .argument argument) _ _).trans inList)
  · rw [List.pairwise_cons]
    refine ⟨?_, restLeave.ordered⟩
    intro other member
    exact (Layout.extents_apart (Layout.node .argument argument) _ _).of_within own
      (restLeave.within other member)

end Leaves

mutual

/-- A term with known operators leaves one operand, on top of those it finds. -/
theorem Term.leaves {text : String} (before : String) (found : List Expr) : (term : Term) →
    term.operatorsKnown = true → BeginsWith text (term.layout.after before) →
      ∃ expr, term.Leaves text before found expr
  | .integer written, _, begins => by
      rw [Term.after_layout] at begins
      exact ⟨_, Term.leaves_own rfl (.integer (slice_word rfl begins)) rfl⟩
  | .float written, _, begins => by
      rw [Term.after_layout] at begins
      exact ⟨_, Term.leaves_own rfl (.float (slice_word rfl begins)) rfl⟩
  | .string value, _, begins => by
      rw [Term.after_layout] at begins
      exact ⟨_, Term.leaves_own rfl (.string (slice_word rfl begins)) rfl⟩
  | .boolean value, _, begins => by
      rw [Term.after_layout] at begins
      exact ⟨_, Term.leaves_own rfl (.boolean (slice_word rfl begins)) rfl⟩
  | .identifier name, _, begins => by
      rw [Term.after_layout] at begins
      exact ⟨_, Term.leaves_own rfl (.identifier (slice_word rfl begins)) rfl⟩
  | .binary left symbol right, known, begins => by
      rw [Term.operatorsKnown, Bool.and_eq_true, Bool.and_eq_true, ← ofSymbol?_isSome,
        Option.isSome_iff_exists] at known
      obtain ⟨⟨⟨operator, stands⟩, leftKnown⟩, rightKnown⟩ := known
      rw [Term.after_binary] at begins
      have leftBegins := Layout.begins_before (Layout.begins_before begins)
      obtain ⟨first, leftLeaves⟩ := Term.leaves before found left leftKnown leftBegins
      obtain ⟨second, rightLeaves⟩ := Term.leaves _ (first :: found) right rightKnown begins
      exact ⟨_, Term.leaves_binary stands leftLeaves rightLeaves⟩
  | .paren inner, known, begins => by
      rw [Term.after_paren] at begins
      obtain ⟨expr, innerLeaves⟩ :=
        Term.leaves _ found inner known (Layout.begins_before begins)
      exact ⟨expr, Term.leaves_paren innerLeaves⟩
  | .call callee arguments, known, begins => by
      rw [Term.operatorsKnown, Bool.and_eq_true] at known
      rw [Term.after_call] at begins
      have inBrackets := Layout.begins_before begins
      have calleeBegins := Layout.begins_before (Layout.begins_before inBrackets)
      obtain ⟨head, calleeLeaves⟩ := Term.leaves before found callee known.1 calleeBegins
      obtain ⟨values, argumentsLeave⟩ :=
        Term.leavesAll _ true (head :: found) arguments known.2 inBrackets
      exact ⟨_, Term.leaves_call calleeLeaves argumentsLeave⟩

theorem Term.leavesAll {text : String} (before : String) (isFirst : Bool) (found : List Expr) :
    (arguments : List (Option String × Term)) → Term.operatorsKnownAll arguments = true →
      BeginsWith text ((Term.contentAll arguments isFirst).after before) →
        ∃ values, Term.LeavesAll text before isFirst found arguments values
  | [], _, _ => ⟨[], rfl, .nil, List.forall_mem_nil _, List.Pairwise.nil⟩
  | (label, value) :: rest, known, begins => by
      rw [Term.operatorsKnownAll, Bool.and_eq_true] at known
      rw [Term.after_arguments] at begins
      have argumentBegins := Layout.begins_before begins
      rw [Layout.after_node] at argumentBegins
      have valueBegins := argumentBegins
      rw [Layout.after_next] at valueBegins
      obtain ⟨expr, valueLeaves⟩ := Term.leaves _ found value known.1 valueBegins
      obtain ⟨others, restLeave⟩ := Term.leavesAll _ false
        (.argument label expr (((labelLayout label).next value.layout).place _) :: found) rest
        known.2 begins
      exact ⟨_, Term.leavesAll_cons rfl argumentBegins valueLeaves restLeave⟩

end

end Source

end Bindery
