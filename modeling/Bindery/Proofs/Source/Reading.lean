import Bindery.Proofs.Collection.Operands
import Bindery.Proofs.Source.Tree

set_option autoImplicit false

/-! What reading the tree of a written type or expression leaves behind, with every place. A type
adds its leaves to the fragments. An expression works on the operands before it, and it does so
whatever its operators are: an unknown one drops the last two operands. -/

namespace Bindery

open Syntax Source

namespace Collection

/-- The text between quotes is what was put between them. -/
theorem unquote_quoted (value : String) : unquote ("\"" ++ value ++ "\"") = value := by
  have written : ("\"" ++ value ++ "\"").toList = '"' :: (value.toList ++ ['"']) := by
    rw [String.toList_append, String.toList_append]
    rfl
  unfold unquote
  rw [written]
  simp only [List.getLast?_append, List.getLast?_singleton, Option.some_or, if_true,
    List.dropLast_concat, String.ofList_toList]

end Collection

/-! ### Layouts -/

namespace Source.Layout

/-- What reading the nodes of a layout makes of a state. -/
def read (layout : Layout) (parent : Option Kind) (before : String) (state : Collection) :
    Collection :=
  state.readAll (Forest.postorderFrom before.utf8ByteSize parent (layout before))

@[simp] theorem read_nothing (parent : Option Kind) (before : String) (state : Collection) :
    nothing.read parent before state = state := rfl

@[simp] theorem read_raw (kind : Kind) (text : String) (parent : Option Kind) (before : String)
    (state : Collection) : (raw kind text).read parent before state = state := rfl

@[simp] theorem read_next (first second : Layout) (parent : Option Kind) (before : String)
    (state : Collection) :
    (first.next second).read parent before state =
      second.read parent (first.after before) (first.read parent before state) := by
  rw [read, next, postorderFrom_append, Collection.readAll_append, ← utf8ByteSize_after]
  rfl

@[simp] theorem read_word (kind : Kind) (text : String) (parent : Option Kind) (before : String)
    (state : Collection) : (word kind text).read parent before state = state := by
  rw [word, read_next, read_raw]
  unfold read gap
  split <;> rfl

/-- Reading finds nothing in such a layout. -/
def Silent (layout : Layout) : Prop :=
  ∀ parent before state, layout.read parent before state = state

theorem silent_next {first second : Layout} (firstSilent : first.Silent)
    (secondSilent : second.Silent) : (first.next second).Silent := by
  intro parent before state
  rw [read_next, firstSilent, secondSilent]

theorem silent_all {layouts : List Layout} (silent : ∀ layout ∈ layouts, layout.Silent) :
    (all layouts).Silent := by
  induction layouts with
  | nil => exact read_nothing
  | cons layout rest ih =>
      exact silent_next (silent layout List.mem_cons_self)
        (ih fun other member => silent other (List.mem_cons_of_mem layout member))

/-- A node is read after what stands in it. -/
@[simp] theorem read_node (kind : Kind) (body : Layout) (parent : Option Kind) (before : String)
    (state : Collection) :
    (node kind body).read parent before state =
      (body.read (some kind) before state).read (body.asNode kind parent before) := by
  rw [read, node, Forest.postorderFrom, Forest.postorderFrom, List.append_nil,
    Tree.postorderFrom, Collection.readAll_append]
  rfl

/-- A node that holds one word has the text of that word. -/
theorem token?_word (kind inside : Kind) (text : String) (parent : Option Kind) (before : String)
    (significant : inside.isTrivia = false) :
    ((word inside text).asNode kind parent before).token? inside =
      some ⟨inside, text, wordStart before⟩ := by
  rw [Node.token?, tokensOf_asNode, tokensOf_word _ _ _ significant, if_pos rfl]
  rfl

theorem literalText_word (kind inside : Kind) (text : String) (parent : Option Kind)
    (before : String) (significant : inside.isTrivia = false) :
    Collection.literalText ((word inside text).asNode kind parent before) inside = text := by
  rw [Collection.literalText, token?_word _ _ _ _ _ significant]
  rfl

end Source.Layout

/-! ### Types -/

namespace Source

mutual

def TypeExpr.fragments : TypeExpr → String → List (Spanned Ty)
  | .named name, before => [⟨.ofName name, (TypeExpr.named name).content.place before⟩]
  | .void, before => [⟨.void, TypeExpr.void.content.place before⟩]
  | .variable name, before => [⟨.variable name, (TypeExpr.variable name).content.place before⟩]
  | .arrow types, before => TypeExpr.fragmentsAll types true before

def TypeExpr.fragmentsAll : List TypeExpr → Bool → String → List (Spanned Ty)
  | [], _, _ => []
  | type :: rest, isFirst, before =>
      let start :=
        (openBracket type.isArrow).after ((separator isFirst (.word .arrow "->")).after before)
      type.fragments start ++
        TypeExpr.fragmentsAll rest false
          ((closeBracket type.isArrow).after (type.layout.after start))

end

theorem silent_separator (isFirst : Bool) {between : Layout} (silent : between.Silent) :
    (separator isFirst between).Silent := by
  cases isFirst with
  | true => exact Layout.read_nothing
  | false => exact silent

theorem nodes_separator (isFirst : Bool) (between : Layout) (parent : Kind) (before : String)
    (silent : ∀ start, between.nodes parent start = []) :
    (separator isFirst between).nodes parent before = [] := by
  cases isFirst with
  | true => rfl
  | false => exact silent before

theorem silent_openBracket (isArrow : Bool) : (openBracket isArrow).Silent := by
  cases isArrow with
  | true => exact Layout.read_word _ _
  | false => exact Layout.read_nothing

theorem silent_closeBracket (isArrow : Bool) : (closeBracket isArrow).Silent := by
  cases isArrow with
  | true => exact Layout.read_raw _ _
  | false => exact Layout.read_nothing

mutual

theorem TypeExpr.read_layout (parent : Option Kind) (before : String) (state : Collection) :
    (type : TypeExpr) →
      type.layout.read parent before state =
        { state with fragments := state.fragments ++ type.fragments before }
  | .named name => by
      rw [TypeExpr.layout, Layout.read_node, TypeExpr.content, Layout.read_word]
      change (match ((Layout.word .identifier name).asNode .namedType parent before).token?
          .identifier with
        | some token => state.pushFragment (.ofName token.text) _
        | none => state) = _
      rw [Layout.token?_word _ _ _ _ _ rfl]
      rfl
  | .void => by
      rw [TypeExpr.layout, Layout.read_node, TypeExpr.content, Layout.read_next,
        Layout.read_word, Layout.read_raw]
      rfl
  | .variable name => by
      rw [TypeExpr.layout, Layout.read_node, TypeExpr.content, Layout.read_next,
        Layout.read_word, Layout.read_raw]
      change (match (TypeExpr.content (.variable name)).asNode .variableType parent before
          |>.token? .identifier with
        | some token => state.pushFragment (.variable token.text) _
        | none => state) = _
      rw [Node.token?, Layout.tokensOf_asNode, TypeExpr.content, Layout.tokensOf_next,
        Layout.tokensOf_word _ _ _ rfl, Layout.tokensOf_raw]
      rfl
  | .arrow types => by
      have inside := TypeExpr.read_contentAll (some .arrowType) true before state types
      rw [TypeExpr.layout, Layout.read_node, TypeExpr.content]
      exact inside

theorem TypeExpr.read_contentAll (parent : Option Kind) (isFirst : Bool) (before : String)
    (state : Collection) : (types : List TypeExpr) →
      (TypeExpr.contentAll types isFirst).read parent before state =
        { state with fragments := state.fragments ++ TypeExpr.fragmentsAll types isFirst before }
  | [] => by
      rw [TypeExpr.contentAll, TypeExpr.fragmentsAll, Layout.read_nothing, List.append_nil]
  | type :: rest => by
      rw [TypeExpr.contentAll, Layout.read_next,
        silent_separator isFirst (Layout.read_word .arrow "->"), Layout.read_next,
        silent_openBracket, Layout.read_next]
      change (Layout.read _ _ _ (type.layout.read _ _ _)) = _
      rw [TypeExpr.read_layout parent _ state type, Layout.read_next, silent_closeBracket,
        TypeExpr.read_contentAll parent false _ _ rest, TypeExpr.fragmentsAll, List.append_assoc]
      rfl

end

/-! ### Expressions -/

mutual

/-- The operands that a term leaves, for those it finds; the last one stands first. -/
def Term.operandsAfter : Term → String → List Expr → List Expr
  | .integer text, before, operands =>
      .integer ((Number.readInteger? text).getD 0) ((Term.integer text).content.place before) ::
        operands
  | .float text, before, operands =>
      .float ((Number.Binary64.read? text).getD .zero) ((Term.float text).content.place before) ::
        operands
  | .string value, before, operands =>
      .string value ((Term.string value).content.place before) :: operands
  | .boolean value, before, operands =>
      .boolean value ((Term.boolean value).content.place before) :: operands
  | .identifier name, before, operands =>
      .identifier name ((Term.identifier name).content.place before) :: operands
  | .binary left operator right, before, operands =>
      let middle := (Layout.word (operatorKind operator) operator.toString).after
        (left.layout.after before)
      Collection.combineLast (Operator.ofSymbol? operator.toString)
        (right.operandsAfter middle (left.operandsAfter before operands))
  | .paren inner, before, operands =>
      inner.operandsAfter ((Layout.word .leftParen "(").after before) operands
  | .call callee arguments, before, operands =>
      let first := (Layout.raw .leftParen "(").after (callee.layout.after before)
      Collection.callLast arguments.length ((Term.call callee arguments).content.place before)
        (Term.operandsAfterAll arguments true first (callee.operandsAfter before operands))

def Term.operandsAfterAll :
    List (Option String × Term) → Bool → String → List Expr → List Expr
  | [], _, _, operands => operands
  | (label, value) :: rest, isFirst, before, operands =>
      let start := (separator isFirst (.raw .comma ",")).after before
      let argument := (labelLayout label).next value.layout
      Term.operandsAfterAll rest false ((Layout.node .argument argument).after start)
        (Collection.labelLast label (argument.place start)
          (value.operandsAfter ((labelLayout label).after start) operands))

end

mutual

def Term.faults : Term → String → List SemanticError
  | .integer text, before =>
      Collection.integerFaults text ((Term.integer text).content.place before)
  | .float text, before =>
      Collection.floatFaults text ((Term.float text).content.place before)
  | .string _, _ | .boolean _, _ | .identifier _, _ => []
  | .binary left operator right, before =>
      let middle := (Layout.word (operatorKind operator) operator.toString).after
        (left.layout.after before)
      left.faults before ++ right.faults middle
  | .paren inner, before => inner.faults ((Layout.word .leftParen "(").after before)
  | .call callee arguments, before =>
      let first := (Layout.raw .leftParen "(").after (callee.layout.after before)
      callee.faults before ++ Term.faultsAll arguments true first

def Term.faultsAll : List (Option String × Term) → Bool → String → List SemanticError
  | [], _, _ => []
  | (label, value) :: rest, isFirst, before =>
      let start := (separator isFirst (.raw .comma ",")).after before
      let argument := (labelLayout label).next value.layout
      value.faults ((labelLayout label).after start) ++
        Term.faultsAll rest false ((Layout.node .argument argument).after start)

end

theorem ofSymbol?_toString (symbol : Char) :
    Operator.ofSymbol? symbol.toString =
      if symbol = '+' then some .add
      else if symbol = '-' then some .sub
      else if symbol = '*' then some .mul
      else if symbol = '/' then some .div
      else none := by
  have single (other : Char) : symbol.toString = String.singleton other ↔ symbol = other :=
    String.singleton_inj
  unfold Operator.ofSymbol?
  simp only [← single]
  rfl

/-- The operator token is found under its own kind, so the operator is the one that the character
stands for, if it stands for one. -/
theorem operatorOf?_binary (left : Term) (operator : Char) (right : Term) (kind : Kind)
    (parent : Option Kind) (before : String) :
    Collection.operatorOf?
      ((Term.binary left operator right).content.asNode kind parent before) =
        Operator.ofSymbol? operator.toString := by
  have found (wanted : Kind) (significant : wanted.isTrivia = false) :
      ((Term.binary left operator right).content.asNode kind parent before).token? wanted =
        if operatorKind operator = wanted then
          some ⟨operatorKind operator, operator.toString,
            Layout.wordStart (left.layout.after before)⟩
        else none := by
    rw [Node.token?, Layout.tokensOf_asNode, Term.content, Layout.tokensOf_next,
      Layout.tokensOf_node, Layout.tokensOf_next, Layout.tokensOf_word _ _ _ significant,
      Layout.tokensOf_node, List.append_nil, List.nil_append]
    by_cases same : operatorKind operator = wanted
    · rw [if_pos same, if_pos same]
      rfl
    · rw [if_neg same, if_neg same]
      rfl
  unfold Collection.operatorOf?
  simp only [List.findSome?_cons, List.findSome?_nil, found .plus rfl, found .minus rfl,
    found .star rfl, found .slash rfl]
  unfold operatorKind
  by_cases plus : operator = '+'
  · simp [plus]
  by_cases minus : operator = '-'
  · simp [minus]
  by_cases star : operator = '*'
  · simp [star]
  by_cases slash : operator = '/'
  · simp [slash]
  rw [ofSymbol?_toString]
  simp [plus, minus, star, slash]

theorem silent_labelLayout (label : Option String) : (labelLayout label).Silent := by
  cases label with
  | some name =>
      exact Layout.silent_next (Layout.read_word .identifier name) (Layout.read_raw .colon ":")
  | none => exact Layout.read_nothing

/-- The label of an argument is the only identifier directly under it. -/
theorem identifier?_argument (label : Option String) (value : Term) (parent : Option Kind)
    (before : String) :
    ((((labelLayout label).next value.layout).asNode .argument parent before).identifier?).map
      Spanned.value = label := by
  rw [Node.identifier?, Node.identifiers, Layout.tokensOf_asNode, Layout.tokensOf_next,
    Term.layout, Layout.tokensOf_node, List.append_nil]
  cases label with
  | some name =>
      rw [labelLayout, Layout.tokensOf_next, Layout.tokensOf_word _ _ _ rfl, if_pos rfl,
        Layout.tokensOf_raw]
      rfl
  | none => rfl

theorem argumentCount_contentAll (arguments : List (Option String × Term)) (isFirst : Bool)
    (parent : Kind) (before : String) :
    (((Term.contentAll arguments isFirst).nodes parent before).filter
      fun child => child.kind = .argument).length = arguments.length := by
  induction arguments generalizing isFirst before with
  | nil => rfl
  | cons argument rest ih =>
      have silent (start : String) : (Layout.raw .comma ",").nodes parent start = [] := rfl
      obtain ⟨label, value⟩ := argument
      rw [Term.contentAll, Layout.nodes_next, nodes_separator _ _ _ _ silent, List.nil_append,
        Layout.nodes_next, Layout.nodes_node, List.filter_append, List.length_append, ih,
        List.length_cons, Nat.add_comm]
      rfl

theorem argumentCount_call (callee : Term) (arguments : List (Option String × Term))
    (kind : Kind) (parent : Option Kind) (before : String) :
    Collection.argumentCount
      ((Term.call callee arguments).content.asNode kind parent before) = arguments.length := by
  have calleeKind : callee.kind ≠ .argument := by
    intro same
    have expression := callee.kind_isExpression
    rw [same] at expression
    cases expression
  rw [Collection.argumentCount, Layout.nodes_asNode, Term.content, Layout.nodes_next,
    Layout.nodes_node, Layout.nodes_next, Layout.nodes_raw, Layout.nodes_next, Layout.nodes_raw,
    List.append_nil, List.nil_append, List.filter_append, List.length_append,
    argumentCount_contentAll]
  simp [Layout.asNode, calleeKind]

mutual

/-- A term works on the operands and adds its faults, and nothing else changes. -/
theorem Term.read_layout (parent : Option Kind) (before : String) (state : Collection) :
    (term : Term) →
      term.layout.read parent before state =
        state.leave (term.operandsAfter before state.operands) (term.faults before)
  | .integer text => by
      rw [Term.layout, Layout.read_node, Term.content, Layout.read_word,
        Collection.read_of_integer _ _ rfl, Collection.readInteger_eq,
        Layout.literalText_word _ _ _ _ _ rfl, Term.operandsAfter, Term.faults]
      rfl
  | .float text => by
      rw [Term.layout, Layout.read_node, Term.content, Layout.read_word,
        Collection.read_of_float _ _ rfl, Collection.readFloat_eq,
        Layout.literalText_word _ _ _ _ _ rfl, Term.operandsAfter, Term.faults]
      rfl
  | .string value => by
      rw [Term.layout, Layout.read_node, Term.content, Layout.read_word]
      change state.pushOperand _ = _
      rw [Layout.literalText_word _ _ _ _ _ rfl, Collection.unquote_quoted, Term.operandsAfter,
        Term.faults, Collection.leave, List.append_nil]
      rfl
  | .boolean value => by
      rw [Term.layout, Layout.read_node, Term.content, Layout.read_word]
      change state.pushOperand _ = _
      rw [Layout.literalText_word _ _ _ _ _ rfl, Term.operandsAfter, Term.faults,
        Collection.leave, List.append_nil]
      cases value <;> rfl
  | .identifier name => by
      rw [Term.layout, Layout.read_node, Term.content, Layout.read_word]
      change (match ((Layout.word .identifier name).asNode .identExpr parent before).token?
          .identifier with
        | some token => state.pushOperand (.identifier token.text _)
        | none => state) = _
      rw [Layout.token?_word _ _ _ _ _ rfl, Term.operandsAfter, Term.faults, Collection.leave,
        List.append_nil]
      rfl
  | .binary left operator right => by
      let middle := (Layout.word (operatorKind operator) operator.toString).after
        (left.layout.after before)
      have inside : (Term.binary left operator right).content.read (some .binaryExpr) before state =
          state.leave (right.operandsAfter middle (left.operandsAfter before state.operands))
            (left.faults before ++ right.faults middle) := by
        rw [Term.content, Layout.read_next, Layout.read_next, Layout.read_word]
        change right.layout.read _ _ (left.layout.read _ _ _) = _
        rw [Term.read_layout _ _ _ left, Term.read_layout _ _ _ right, Collection.leave_leave]
        rfl
      rw [Term.layout, Layout.read_node]
      change Collection.readBinary (Layout.read _ (some .binaryExpr) _ _) _ = _
      rw [inside, Collection.readBinary_eq, operatorOf?_binary, Collection.leave_leave,
        Term.operandsAfter, Term.faults, List.append_nil]
      rfl
  | .paren inner => by
      rw [Term.layout, Layout.read_node, Term.content, Layout.read_next, Layout.read_word,
        Layout.read_next, Layout.read_raw]
      change inner.layout.read _ _ _ = _
      rw [Term.read_layout _ _ _ inner, Term.operandsAfter, Term.faults]
  | .call callee arguments => by
      let first := (Layout.raw .leftParen "(").after (callee.layout.after before)
      have inside : (Term.call callee arguments).content.read (some .call) before state =
          state.leave
            (Term.operandsAfterAll arguments true first
              (callee.operandsAfter before state.operands))
            (callee.faults before ++ Term.faultsAll arguments true first) := by
        rw [Term.content, Layout.read_next, Layout.read_next, Layout.read_raw, Layout.read_next,
          Layout.read_raw]
        change (Term.contentAll arguments true).read _ _ (callee.layout.read _ _ _) = _
        rw [Term.read_layout _ _ _ callee, Term.read_contentAll _ _ _ _ arguments,
          Collection.leave_leave]
        rfl
      rw [Term.layout, Layout.read_node]
      change Collection.readCall (Layout.read _ (some .call) _ _) _ = _
      rw [inside, Collection.readCall_eq, argumentCount_call, Collection.leave_leave,
        Term.operandsAfter, Term.faults, List.append_nil]
      rfl

theorem Term.read_contentAll (parent : Option Kind) (isFirst : Bool) (before : String)
    (state : Collection) : (arguments : List (Option String × Term)) →
      (Term.contentAll arguments isFirst).read parent before state =
        state.leave (Term.operandsAfterAll arguments isFirst before state.operands)
          (Term.faultsAll arguments isFirst before)
  | [] => by
      rw [Term.contentAll, Term.operandsAfterAll, Term.faultsAll, Layout.read_nothing,
        Collection.leave_self]
  | (label, value) :: rest => by
      rw [Term.contentAll, Layout.read_next,
        silent_separator isFirst (Layout.read_raw .comma ","), Layout.read_next,
        Layout.read_node, Layout.read_next, silent_labelLayout]
      change Layout.read _ _ _ (Collection.readArgument (value.layout.read _ _ _)
        (((labelLayout label).next value.layout).asNode .argument parent _)) = _
      rw [Term.read_layout _ _ _ value, Collection.readArgument_eq, identifier?_argument,
        Collection.leave_leave, List.append_nil, Term.read_contentAll _ _ _ _ rest,
        Collection.leave_leave, Term.operandsAfterAll, Term.faultsAll]
      rfl

end

end Source

end Bindery
