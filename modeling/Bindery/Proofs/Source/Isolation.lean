import Bindery.Proofs.Collection.Isolation
import Bindery.Proofs.Source.Tree

set_option autoImplicit false

/-! Sources have no stray nodes. A source puts types into signatures and fields, fields into type
definitions and expressions into bindings, and it does not nest declarations. -/

namespace Bindery

open Syntax

namespace Syntax.Slot

/-- Whether a node may stand here and makes no difference to what may stand in it. -/
def passes (slot : Slot) (inside : Bool) (kind : Kind) : Bool :=
  slot.admits inside kind && !slot.takes kind

/-- What a slot has to admit for the nodes of a source. -/
structure SuitsSources (slot : Slot) : Prop where
  program : slot.passes false .program = true
  declarations : ∀ decl : Source.Decl, slot.admits false decl.kind = true
  path : slot.passes (slot.takes .importDeclaration) .accessChain = true
  visibility : ∀ inside, slot.passes inside .visibility = true
  terms : ∀ term : Source.Term, slot.passes (slot.takes .binding) term.kind = true
  arguments : slot.passes (slot.takes .binding) .argument = true
  types : ∀ type : Source.TypeExpr, slot.passes (slot.takes .signature) type.kind = true
  fields : slot.admits (slot.takes .typeDefinition) .typeField = true
  fieldTypes : ∀ type : Source.TypeExpr,
    slot.passes (slot.takes .typeDefinition || slot.takes .typeField) type.kind = true

end Syntax.Slot

namespace Source

/-! ### Layouts -/

def Layout.Sheltered (slot : Slot) (inside : Bool) (layout : Layout) : Prop :=
  ∀ before, Forest.sheltered slot inside (layout before) = true

namespace Layout

variable {slot : Slot} {inside : Bool}

theorem sheltered_nothing : nothing.Sheltered slot inside := fun _before => rfl

theorem sheltered_raw (kind : Kind) (text : String) : (raw kind text).Sheltered slot inside :=
  fun _before => rfl

theorem sheltered_next {first second : Layout} (firstSheltered : first.Sheltered slot inside)
    (secondSheltered : second.Sheltered slot inside) :
    (first.next second).Sheltered slot inside := by
  intro before
  rw [next, sheltered_append, firstSheltered, secondSheltered]
  rfl

theorem sheltered_word (kind : Kind) (text : String) : (word kind text).Sheltered slot inside := by
  have gapSheltered : gap.Sheltered slot inside := by
    intro before
    unfold gap
    split
    · rfl
    · rfl
  exact sheltered_next gapSheltered (sheltered_raw kind text)

theorem sheltered_all (layouts : List Layout)
    (each : ∀ layout ∈ layouts, layout.Sheltered slot inside) :
    (all layouts).Sheltered slot inside := by
  induction layouts with
  | nil => exact sheltered_nothing
  | cons layout rest ih =>
      rw [List.forall_mem_cons] at each
      exact sheltered_next each.1 (ih each.2)

theorem sheltered_node {kind : Kind} {body : Layout} (admitted : slot.admits inside kind = true)
    (sheltered : body.Sheltered slot (inside || slot.takes kind)) :
    (node kind body).Sheltered slot inside := by
  intro before
  rw [node, Forest.sheltered, Tree.sheltered, admitted, sheltered]
  rfl

theorem sheltered_passed {kind : Kind} {body : Layout} (passed : slot.passes inside kind = true)
    (sheltered : body.Sheltered slot inside) : (node kind body).Sheltered slot inside := by
  rw [Slot.passes, Bool.and_eq_true, Bool.not_eq_true'] at passed
  apply sheltered_node passed.1
  rw [passed.2, Bool.or_false]
  exact sheltered

end Layout

open Layout

variable {slot : Slot} {inside : Bool}

theorem sheltered_separator (isFirst : Bool) {between : Layout}
    (sheltered : between.Sheltered slot inside) :
    (separator isFirst between).Sheltered slot inside := by
  cases isFirst with
  | true => exact sheltered_nothing
  | false => exact sheltered

/-! ### Types and expressions -/

mutual

theorem TypeExpr.sheltered_content
    (passed : ∀ type : TypeExpr, slot.passes inside type.kind = true) : (type : TypeExpr) →
      type.content.Sheltered slot inside
  | .named name => sheltered_word .identifier name
  | .void => sheltered_next (sheltered_word .leftParen "(") (sheltered_raw .rightParen ")")
  | .variable name => sheltered_next (sheltered_word .quote "'") (sheltered_raw .identifier name)
  | .arrow types => TypeExpr.sheltered_contentAll passed true types

theorem TypeExpr.sheltered_contentAll
    (passed : ∀ type : TypeExpr, slot.passes inside type.kind = true) (isFirst : Bool) :
    (types : List TypeExpr) → (TypeExpr.contentAll types isFirst).Sheltered slot inside
  | [] => sheltered_nothing
  | type :: rest => by
      have opened : (openBracket type.isArrow).Sheltered slot inside := by
        unfold openBracket
        split
        · exact sheltered_word .leftParen "("
        · exact sheltered_nothing
      have closed : (closeBracket type.isArrow).Sheltered slot inside := by
        unfold closeBracket
        split
        · exact sheltered_raw .rightParen ")"
        · exact sheltered_nothing
      have content := sheltered_passed (passed type) (type.sheltered_content passed)
      have later := TypeExpr.sheltered_contentAll passed false rest
      exact sheltered_next (sheltered_separator isFirst (sheltered_word .arrow "->"))
        (sheltered_next opened (sheltered_next content (sheltered_next closed later)))

end

theorem TypeExpr.sheltered_layout
    (passed : ∀ type : TypeExpr, slot.passes inside type.kind = true) (type : TypeExpr) :
    type.layout.Sheltered slot inside :=
  sheltered_passed (passed type) (type.sheltered_content passed)

theorem sheltered_label (label : Option String) : (labelLayout label).Sheltered slot inside := by
  cases label with
  | none => exact sheltered_nothing
  | some name => exact sheltered_next (sheltered_word .identifier name) (sheltered_raw .colon ":")

mutual

theorem Term.sheltered_content (passed : ∀ term : Term, slot.passes inside term.kind = true)
    (arguments : slot.passes inside .argument = true) : (term : Term) →
      term.content.Sheltered slot inside
  | .integer text => sheltered_word .integer text
  | .float text => sheltered_word .float text
  | .string value => sheltered_word .string ("\"" ++ value ++ "\"")
  | .boolean value => sheltered_word .boolean (Text.truth value)
  | .identifier name => sheltered_word .identifier name
  | .binary left operator right =>
      sheltered_next (sheltered_passed (passed left) (left.sheltered_content passed arguments))
        (sheltered_next (sheltered_word (operatorKind operator) operator.toString)
          (sheltered_passed (passed right) (right.sheltered_content passed arguments)))
  | .paren inner =>
      sheltered_next (sheltered_word .leftParen "(")
        (sheltered_next
          (sheltered_passed (passed inner) (inner.sheltered_content passed arguments))
          (sheltered_raw .rightParen ")"))
  | .call callee given =>
      sheltered_next
        (sheltered_passed (passed callee) (callee.sheltered_content passed arguments))
        (sheltered_next (sheltered_raw .leftParen "(")
          (sheltered_next (Term.sheltered_contentAll passed arguments true given)
            (sheltered_raw .rightParen ")")))

theorem Term.sheltered_contentAll (passed : ∀ term : Term, slot.passes inside term.kind = true)
    (arguments : slot.passes inside .argument = true) (isFirst : Bool) :
    (given : List (Option String × Term)) →
      (Term.contentAll given isFirst).Sheltered slot inside
  | [] => sheltered_nothing
  | (label, value) :: rest => by
      have content := sheltered_passed (passed value) (value.sheltered_content passed arguments)
      have argument := sheltered_passed arguments (sheltered_next (sheltered_label label) content)
      have later := Term.sheltered_contentAll passed arguments false rest
      exact sheltered_next (sheltered_separator isFirst (sheltered_raw .comma ","))
        (sheltered_next argument later)

end

theorem Term.sheltered_layout (passed : ∀ term : Term, slot.passes inside term.kind = true)
    (arguments : slot.passes inside .argument = true) (term : Term) :
    term.layout.Sheltered slot inside :=
  sheltered_passed (passed term) (term.sheltered_content passed arguments)

/-! ### Declarations -/

theorem sheltered_path (parts : List (List Char)) : (pathLayout parts).Sheltered slot inside := by
  cases parts with
  | nil => exact sheltered_nothing
  | cons part parts =>
      apply sheltered_next (sheltered_word .identifier (String.ofList part))
      apply sheltered_all
      intro layout member
      obtain ⟨other, _present, rfl⟩ := List.mem_map.mp member
      exact sheltered_next (sheltered_raw .colonColon "::")
        (sheltered_raw .identifier (String.ofList other))

theorem sheltered_visibility (passed : slot.passes inside .visibility = true) (exported : Bool) :
    (visibilityLayout exported).Sheltered slot inside := by
  unfold visibilityLayout
  split
  · exact sheltered_passed passed (sheltered_word .pubWord "pub")
  · exact sheltered_nothing

theorem sheltered_fields (suits : slot.SuitsSources) (isFirst : Bool)
    (fields : List (String × TypeExpr)) :
    (fieldsLayout fields isFirst).Sheltered slot (slot.takes .typeDefinition) := by
  induction fields generalizing isFirst with
  | nil => exact sheltered_nothing
  | cons field rest ih =>
      have type := field.2.sheltered_layout suits.fieldTypes
      have content := sheltered_next (sheltered_word .identifier field.1)
        (sheltered_next (sheltered_raw .colon ":") type)
      exact sheltered_next (sheltered_separator isFirst (sheltered_raw .comma ","))
        (sheltered_next (sheltered_node suits.fields content) (ih false))

theorem Decl.sheltered_content (suits : slot.SuitsSources) (decl : Decl) :
    decl.content.Sheltered slot (slot.takes decl.kind) := by
  cases decl with
  | bringIn path =>
      exact sheltered_next (sheltered_word .importWord "import")
        (sheltered_passed suits.path (sheltered_path _))
  | binding exported identifiers body =>
      have names : (all (identifiers.map (word .identifier))).Sheltered slot
          (slot.takes .binding) := by
        apply sheltered_all
        intro layout member
        obtain ⟨name, _present, rfl⟩ := List.mem_map.mp member
        exact sheltered_word .identifier name
      have bodySheltered : (bodyLayout body).Sheltered slot (slot.takes .binding) := by
        cases body with
        | none => exact sheltered_nothing
        | some term => exact term.sheltered_layout suits.terms suits.arguments
      exact sheltered_next (sheltered_visibility (suits.visibility _) exported)
        (sheltered_next names (sheltered_next (sheltered_word .equals "=") bodySheltered))
  | signature name type =>
      exact sheltered_next (sheltered_word .identifier name)
        (sheltered_next (sheltered_word .colonColon "::") (type.sheltered_layout suits.types))
  | typeDefinition exported name fields =>
      exact sheltered_next (sheltered_visibility (suits.visibility _) exported)
        (sheltered_next (sheltered_word .typeWord "type")
          (sheltered_next (sheltered_word .identifier name)
            (sheltered_next (sheltered_word .leftParen "(")
              (sheltered_next (sheltered_fields suits true fields)
                (sheltered_raw .rightParen ")")))))

theorem sheltered_decls (suits : slot.SuitsSources) (isFirst : Bool) (decls : List Decl) :
    (declsLayout decls isFirst).Sheltered slot false := by
  induction decls generalizing isFirst with
  | nil => exact sheltered_nothing
  | cons decl rest ih =>
      have content : decl.content.Sheltered slot (false || slot.takes decl.kind) := by
        rw [Bool.false_or]
        exact decl.sheltered_content suits
      exact sheltered_next (sheltered_separator isFirst (sheltered_raw .whitespace "\n"))
        (sheltered_next (sheltered_node (suits.declarations decl) content) (ih false))

theorem sheltered_tree (suits : slot.SuitsSources) (decls : List Decl) :
    (tree decls).sheltered slot false = true := by
  have whole := sheltered_passed suits.program (sheltered_decls suits true decls) ""
  rw [node, Forest.sheltered, Bool.and_eq_true] at whole
  exact whole.1

open Collection

theorem fragmentSlot_suits : fragmentSlot.SuitsSources where
  program := rfl
  declarations decl := by cases decl <;> rfl
  path := rfl
  visibility inside := by cases inside <;> rfl
  terms term := by cases term <;> rfl
  arguments := rfl
  types type := by cases type <;> rfl
  fields := rfl
  fieldTypes type := by cases type <;> rfl

theorem fieldSlot_suits : fieldSlot.SuitsSources where
  program := rfl
  declarations decl := by cases decl <;> rfl
  path := rfl
  visibility inside := by cases inside <;> rfl
  terms term := by cases term <;> rfl
  arguments := rfl
  types type := by cases type <;> rfl
  fields := rfl
  fieldTypes type := by cases type <;> rfl

theorem operandSlot_suits : operandSlot.SuitsSources where
  program := rfl
  declarations decl := by cases decl <;> rfl
  path := rfl
  visibility inside := by cases inside <;> rfl
  terms term := by cases term <;> rfl
  arguments := rfl
  types type := by cases type <;> rfl
  fields := rfl
  fieldTypes type := by cases type <;> rfl

/-- In the tree of a source nothing is left for another declaration. -/
theorem isolated_tree (decls : List Decl) : isolated (tree decls) = true := by
  rw [isolated, sheltered_tree fragmentSlot_suits, sheltered_tree fieldSlot_suits,
    sheltered_tree operandSlot_suits]
  rfl

end Source

end Bindery
