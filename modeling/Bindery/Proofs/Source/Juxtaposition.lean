import Bindery.Proofs.Collection.Shift
import Bindery.Proofs.Source.Collected

set_option autoImplicit false

/-! One source behind another. A layout depends on the text before it only through its last
character, so behind a line break everything is laid out as at the start, and reading is back where
it started. The declarations of both stand in the result, those of the second further to the
right. -/

namespace Bindery

open Syntax

namespace Source

/-! ### Layouts behind a text -/

namespace Layout

/-- Layouts that are put together from tokens, blanks before words, neighbours and nodes. -/
inductive Composed : Layout → Prop where
  | nothing : Composed .nothing
  | raw (kind : Kind) (text : String) : Composed (.raw kind text)
  | gap : Composed .gap
  | next {first second : Layout} (firstComposed : Composed first)
      (secondComposed : Composed second) : Composed (first.next second)
  | node (kind : Kind) {body : Layout} (composed : Composed body) : Composed (.node kind body)

theorem Composed.word (kind : Kind) (text : String) : Composed (.word kind text) :=
  .next .gap (.raw kind text)

theorem Composed.all (layouts : List Layout) (each : ∀ layout ∈ layouts, Composed layout) :
    Composed (.all layouts) := by
  induction layouts with
  | nil => exact .nothing
  | cons layout rest ih =>
      rw [List.forall_mem_cons] at each
      exact .next each.1 (ih each.2)

theorem isOpenEnded_append (front before : String) (openEnded : Draft.isOpenEnded front = true) :
    Draft.isOpenEnded (front ++ before) = Draft.isOpenEnded before := by
  unfold Draft.isOpenEnded at openEnded ⊢
  rw [String.toList_append, List.getLast?_append]
  cases before.toList.getLast? with
  | none => exact openEnded
  | some last => rfl

/-- Behind a text where a word may stand, a layout is what it is at the start of a text. -/
theorem Composed.behind {layout : Layout} (composed : layout.Composed) (front before : String)
    (openEnded : Draft.isOpenEnded front = true) : layout (front ++ before) = layout before := by
  -- Neighbours make the text before the next one longer, so it is generalised.
  induction composed generalizing before with
  | nothing => rfl
  | raw kind text => rfl
  | gap => rw [Layout.gap, Layout.gap, isOpenEnded_append front before openEnded]
  | next firstComposed secondComposed firstSame secondSame =>
      rename_i first second
      have moved : first.after (front ++ before) = front ++ first.after before := by
        rw [after, after, firstSame, String.append_assoc]
      rw [Layout.next, Layout.next, firstSame, moved, secondSame]
  | node kind composed same => rw [Layout.node, Layout.node, same]

theorem isOpenEnded_line (text : String) : Draft.isOpenEnded (text ++ "\n") = true := by
  unfold Draft.isOpenEnded
  rw [String.toList_append, List.getLast?_append]
  rfl

end Layout

open Layout

theorem composed_separator (isFirst : Bool) {between : Layout} (composed : between.Composed) :
    (separator isFirst between).Composed := by
  cases isFirst with
  | true => exact .nothing
  | false => exact composed

mutual

theorem TypeExpr.composed_content : (type : TypeExpr) → type.content.Composed
  | .named name => .word .identifier name
  | .void => .next (.word .leftParen "(") (.raw .rightParen ")")
  | .variable name => .next (.word .quote "'") (.raw .identifier name)
  | .arrow types => TypeExpr.composed_contentAll true types

theorem TypeExpr.composed_contentAll (isFirst : Bool) : (types : List TypeExpr) →
    (TypeExpr.contentAll types isFirst).Composed
  | [] => .nothing
  | type :: rest => by
      have opened : (openBracket type.isArrow).Composed := by
        cases type.isArrow with
        | true => exact .word .leftParen "("
        | false => exact .nothing
      have closed : (closeBracket type.isArrow).Composed := by
        cases type.isArrow with
        | true => exact .raw .rightParen ")"
        | false => exact .nothing
      have content := TypeExpr.composed_content type
      have later := TypeExpr.composed_contentAll false rest
      exact .next (composed_separator isFirst (.word .arrow "->"))
        (.next opened (.next (.node type.kind content) (.next closed later)))

end

theorem TypeExpr.composed_layout (type : TypeExpr) : type.layout.Composed :=
  .node type.kind type.composed_content

theorem composed_label (label : Option String) : (labelLayout label).Composed := by
  cases label with
  | some name => exact .next (.word .identifier name) (.raw .colon ":")
  | none => exact .nothing

mutual

theorem Term.composed_content : (term : Term) → term.content.Composed
  | .integer text => .word .integer text
  | .float text => .word .float text
  | .string _ => .word .string _
  | .boolean _ => .word .boolean _
  | .identifier name => .word .identifier name
  | .binary left operator right =>
      .next (.node left.kind (Term.composed_content left))
        (.next (.word (operatorKind operator) operator.toString)
          (.node right.kind (Term.composed_content right)))
  | .paren inner =>
      .next (.word .leftParen "(")
        (.next (.node inner.kind (Term.composed_content inner)) (.raw .rightParen ")"))
  | .call callee arguments =>
      .next (.node callee.kind (Term.composed_content callee))
        (.next (.raw .leftParen "(")
          (.next (Term.composed_contentAll true arguments) (.raw .rightParen ")")))

theorem Term.composed_contentAll (isFirst : Bool) :
    (arguments : List (Option String × Term)) →
      (Term.contentAll arguments isFirst).Composed
  | [] => .nothing
  | (label, value) :: rest =>
      .next (composed_separator isFirst (.raw .comma ","))
        (.next
          (.node .argument
            (.next (composed_label label) (.node value.kind (Term.composed_content value))))
          (Term.composed_contentAll false rest))

end

theorem composed_path (parts : List (List Char)) : (pathLayout parts).Composed := by
  cases parts with
  | nil => exact .nothing
  | cons part rest =>
      refine .next (.word .identifier _) (.all _ ?_)
      intro layout member
      obtain ⟨other, _member, rfl⟩ := List.mem_map.mp member
      exact .next (.raw .colonColon "::") (.raw .identifier _)

theorem composed_visibility (exported : Bool) : (visibilityLayout exported).Composed := by
  cases exported with
  | true => exact .node .visibility (.word .pubWord "pub")
  | false => exact .nothing

theorem composed_fields (fields : List (String × TypeExpr)) (isFirst : Bool) :
    (fieldsLayout fields isFirst).Composed := by
  induction fields generalizing isFirst with
  | nil => exact .nothing
  | cons field rest ih =>
      have content : (fieldContent field).Composed :=
        .next (.word .identifier field.1) (.next (.raw .colon ":") field.2.composed_layout)
      exact .next (composed_separator isFirst (.raw .comma ","))
        (.next (.node .typeField content) (ih false))

theorem Decl.composed_content (decl : Decl) : decl.content.Composed := by
  cases decl with
  | bringIn path =>
      exact .next (.word .importWord "import") (.node .accessChain (composed_path _))
  | binding exported identifiers body =>
      have words : (Layout.all (identifiers.map (Layout.word .identifier))).Composed := by
        apply Composed.all
        intro layout member
        obtain ⟨name, _member, rfl⟩ := List.mem_map.mp member
        exact .word .identifier name
      have bodyComposed : (bodyLayout body).Composed := by
        cases body with
        | some term => exact .node term.kind term.composed_content
        | none => exact .nothing
      exact .next (composed_visibility exported)
        (.next words (.next (.word .equals "=") bodyComposed))
  | signature name type =>
      exact .next (.word .identifier name)
        (.next (.word .colonColon "::") type.composed_layout)
  | typeDefinition exported name fields =>
      exact .next (composed_visibility exported)
        (.next (.word .typeWord "type")
          (.next (.word .identifier name)
            (.next (.word .leftParen "(")
              (.next (composed_fields fields true) (.raw .rightParen ")")))))

theorem composed_decls (decls : List Decl) (isFirst : Bool) :
    (declsLayout decls isFirst).Composed := by
  induction decls generalizing isFirst with
  | nil => exact .nothing
  | cons decl rest ih =>
      exact .next (composed_separator isFirst (.raw .whitespace "\n"))
        (.next (.node decl.kind decl.composed_content) (ih false))

/-! ### Declarations behind declarations -/

theorem declsLayout_append (first second : List Decl) (isFirst : Bool) :
    declsLayout (first ++ second) isFirst =
      (declsLayout first isFirst).next (declsLayout second (isFirst && first.isEmpty)) := by
  induction first generalizing isFirst with
  | nil => rw [List.nil_append, List.isEmpty_nil, Bool.and_true, declsLayout, nothing_next]
  | cons decl rest ih =>
      rw [List.cons_append, declsLayout, ih, List.isEmpty_cons, Bool.and_false, Bool.false_and,
        declsLayout, next_assoc, next_assoc]

theorem declsLayout_line {decls : List Decl} (declares : decls ≠ []) :
    declsLayout decls false = (Layout.raw .whitespace "\n").next (declsLayout decls true) := by
  cases decls with
  | nil => contradiction
  | cons decl rest =>
      rw [declsLayout, declsLayout, separator, separator, if_pos rfl, nothing_next,
        if_neg Bool.false_ne_true]

/-- The second source is laid out behind the line break as it is by itself. -/
theorem declsLayout_behind {first second : List Decl} (firstDeclares : first ≠ [])
    (secondDeclares : second ≠ []) :
    declsLayout (first ++ second) true "" =
      declsLayout first true "" ++ .token .whitespace "\n" :: declsLayout second true "" := by
  have front : first.isEmpty = false := List.isEmpty_eq_false_iff.mpr firstDeclares
  have same := (composed_decls second true).behind
    ((declsLayout first true).after "" ++ "\n") "" (isOpenEnded_line _)
  rw [String.append_empty] at same
  rw [declsLayout_append, front, Bool.and_false, declsLayout_line secondDeclares, next, next,
    after_raw, same]
  rfl

theorem text_tree_append {first second : List Decl} (firstDeclares : first ≠ [])
    (secondDeclares : second ≠ []) :
    (tree (first ++ second)).text = (tree first).text ++ "\n" ++ (tree second).text := by
  have text (decls : List Decl) : (tree decls).text = Forest.text (declsLayout decls true "") := rfl
  rw [text, declsLayout_behind firstDeclares secondDeclares, Forest.text_append, Forest.text,
    ← text, ← text, String.append_assoc]
  rfl

/-! ### Reading -/

/-- The nodes of a source below its root. -/
def inner (decls : List Decl) : List Node :=
  Forest.postorderFrom 0 (some .program) (declsLayout decls true "")

/-- The root declares nothing by itself. -/
theorem readAll_tree (state : Collection) (decls : List Decl) :
    state.readAll (tree decls).postorder = state.readAll (inner decls) := by
  rw [tree, Tree.postorder, Tree.postorderFrom, Collection.readAll_append]
  rfl

theorem inner_append {first second : List Decl} (firstDeclares : first ≠ [])
    (secondDeclares : second ≠ []) :
    inner (first ++ second) =
      inner first ++
        (inner second).map (Node.shift ((tree first).text.utf8ByteSize + 1)) := by
  have width : Forest.byteSize (declsLayout first true "") + 1 =
      (tree first).text.utf8ByteSize + 1 := by
    rw [Tree.utf8ByteSize_text]
    rfl
  rw [inner, declsLayout_behind firstDeclares secondDeclares, postorderFrom_append,
    Forest.postorderFrom]
  -- The line break adds one byte and no node.
  refine congrArg (inner first ++ ·) ?_
  rw [inner, ← Forest.postorderFrom_shift, ← width, Nat.zero_add, Nat.zero_add]
  rfl

/-- After a source nothing is left behind: only what it declares and what is wrong with it. -/
theorem readAll_inner (decls : List Decl) :
    Collection.empty.readAll (inner decls) =
      .settled (entries decls true "") (faults decls true "") :=
  read_declsLayout decls true (some .program) "" .empty []

end Source

namespace Program

/-- The errors of a result. -/
def problemsOf : Except (List SemanticError) Program → List SemanticError
  | .ok _ => []
  | .error errors => errors

/-- The declarations of two results in order, or the errors of both. -/
def joined : Except (List SemanticError) Program → Except (List SemanticError) Program →
    Except (List SemanticError) Program
  | .ok first, .ok second => .ok (first.append second)
  | first, second => .error (problemsOf first ++ problemsOf second)

def shiftedResult (distance : Nat) :
    Except (List SemanticError) Program → Except (List SemanticError) Program
  | .ok program => .ok (program.shift distance)
  | .error errors => .error (errors.map (SemanticError.shift distance))

end Program

namespace Collection

theorem result_shift (distance : Nat) (state : Collection) :
    (state.shift distance).result = Program.shiftedResult distance state.result := by
  unfold result shift
  rw [List.isEmpty_map]
  cases state.errors.isEmpty <;> rfl

theorem behind_empty (program : Program) (errors : List SemanticError) :
    empty.behind program errors = .settled program errors := by
  unfold behind settled empty
  rw [Program.append_empty, List.append_nil]

theorem result_behind (first second : Collection) :
    (second.behind first.program first.errors).result =
      Program.joined first.result second.result := by
  unfold result behind
  rcases first.errors with _ | ⟨error, errors⟩
  · rcases second.errors with _ | ⟨other, others⟩ <;> rfl
  · rcases second.errors with _ | ⟨other, others⟩ <;> rfl

end Collection

namespace Source

theorem ofTree_tree_append {first second : List Decl} (firstDeclares : first ≠ [])
    (secondDeclares : second ≠ []) :
    Program.ofTree (tree (first ++ second)) =
      Program.joined (Program.ofTree (tree first))
        (Program.shiftedResult ((tree first).text.utf8ByteSize + 1)
          (Program.ofTree (tree second))) := by
  have settled := readAll_inner first
  have moved := Collection.shift_readAll ((tree first).text.utf8ByteSize + 1) .empty (inner second)
  rw [Program.ofTree, Program.ofTree, Program.ofTree, readAll_tree, readAll_tree, readAll_tree,
    ← Collection.result_shift, moved, inner_append firstDeclares secondDeclares,
    Collection.readAll_append, settled, ← Collection.behind_empty, Collection.behind_readAll,
    Collection.behind_empty, ← Collection.result_behind]
  rfl

/-- A source behind another has the text of both with a line break between them. It is read like
both: it declares what the first declares and then what the second does, the latter further to the
right by the length of the first text and the line break, or it has the errors of both. -/
theorem render_append (first second : List Decl) (firstDeclares : first ≠ [])
    (secondDeclares : second ≠ []) :
    ∃ firstText firstTree secondText secondTree tree,
      render first = .ok (firstText, firstTree) ∧
        render second = .ok (secondText, secondTree) ∧
          render (first ++ second) = .ok (firstText ++ "\n" ++ secondText, tree) ∧
            Program.ofTree tree =
              Program.joined (Program.ofTree firstTree)
                (Program.shiftedResult (firstText.utf8ByteSize + 1)
                  (Program.ofTree secondTree)) := by
  refine ⟨_, _, _, _, _, render_eq first, render_eq second, ?_,
    ofTree_tree_append firstDeclares secondDeclares⟩
  rw [render_eq, text_tree_append firstDeclares secondDeclares]

def sampleFront : List Decl := [.bringIn "io", .binding false ["x"] (some (.integer "1"))]

/-- A binding without a name and one whose body is lost. -/
def sampleBack : List Decl :=
  [.binding true [] (some (.integer "2")),
    .binding false ["y"] (some (.binary (.integer "one") '%' (.float "1.5")))]

theorem render_append_sample :
    ∃ frontText frontTree backText backTree tree,
      render sampleFront = .ok (frontText, frontTree) ∧
        render sampleBack = .ok (backText, backTree) ∧
          render (sampleFront ++ sampleBack) = .ok (frontText ++ "\n" ++ backText, tree) ∧
            Program.unplacedResult (Program.ofTree frontTree) =
              .ok ⟨[nameOf "io"], [⟨nameOf "x", [], .integer 1 .nowhere, false⟩], [], []⟩ ∧
            Program.unplacedResult (Program.ofTree backTree) =
              .error [.bindingWithoutName .nowhere, .invalidLiteral .integer "one" .nowhere,
                .bindingWithoutBody "y" .nowhere] ∧
            Program.ofTree tree =
              Program.joined (Program.ofTree frontTree)
                (Program.shiftedResult (frontText.utf8ByteSize + 1)
                  (Program.ofTree backTree)) := by
  obtain ⟨frontText, frontTree, backText, backTree, both, front, back, written, read⟩ :=
    render_append sampleFront sampleBack (by decide) (by decide)
  refine ⟨frontText, frontTree, backText, backTree, both, front, back, written, ?_, ?_, read⟩
  · rw [render_eq] at front
    cases front
    rw [ofTree_tree_unplaced]
    rfl
  · rw [render_eq] at back
    cases back
    rw [ofTree_tree_unplaced]
    rfl

end Source

end Bindery
