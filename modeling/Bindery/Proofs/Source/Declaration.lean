import Bindery.Proofs.Collection.Step
import Bindery.Proofs.Source.Reading

set_option autoImplicit false

/-! What reading the tree of a source comes to, with every place. No fragment, operand or field is
left over between two declarations, so each of them adds its own entries and faults to those of the
declarations before it. -/

namespace Bindery

open Syntax Source

/-- The state with further fields and further errors. -/
def Collection.keep (state : Collection) (fields : List Field) (errors : List SemanticError) :
    Collection :=
  { state with fields := state.fields ++ fields, errors := state.errors ++ errors }

theorem Collection.keep_keep (state : Collection) (first second : List Field)
    (earlier later : List SemanticError) :
    (state.keep first earlier).keep second later =
      state.keep (first ++ second) (earlier ++ later) := by
  simp only [keep, List.append_assoc]

def Collection.settled (program : Program) (errors : List SemanticError) : Collection :=
  ⟨[], [], [], program, errors⟩

namespace Source

/-! ### Paths -/

theorem significantText_append (left right : Forest) :
    Forest.significantText (left ++ right) =
      Forest.significantText left ++ Forest.significantText right := by
  induction left with
  | nil => rw [List.nil_append, Forest.significantText, String.empty_append]
  | cons tree rest ih =>
      rw [List.cons_append, Forest.significantText, Forest.significantText, ih,
        String.append_assoc]

theorem splitPath_ne_nil (path : List Char) : splitPath path ≠ [] := by
  fun_cases splitPath path <;> simp

/-- A path is the parts it is split into, with the colons between them. -/
theorem intercalate_splitPath (path : List Char) :
    [':', ':'].intercalate (splitPath path) = path := by
  fun_induction splitPath path with
  | case1 => rfl
  | case2 rest ih =>
      cases parts : splitPath rest with
      | nil => exact absurd parts (splitPath_ne_nil rest)
      | cons part others =>
          rw [parts] at ih
          rw [List.intercalate_cons_cons, ih]
          rfl
  | case3 c rest notColons empty => exact absurd empty (splitPath_ne_nil rest)
  | case4 c rest notColons part parts split ih =>
      rw [split] at ih
      cases parts with
      | nil =>
          rw [List.intercalate_singleton] at ih ⊢
          rw [ih]
      | cons other others =>
          rw [List.intercalate_cons_cons] at ih ⊢
          rw [← ih]
          rfl

theorem significantText_word (kind : Kind) (text : String) (before : String)
    (significant : kind.isTrivia = false) :
    Forest.significantText (Layout.word kind text before) = text := by
  have blank : Forest.significantText (Layout.gap before) = "" := by
    unfold Layout.gap
    split <;> rfl
  rw [Layout.word, Layout.next, significantText_append, blank, String.empty_append]
  simp [Layout.raw, Forest.significantText, Tree.significantText, significant]

theorem significantText_raw (kind : Kind) (text : String) (before : String)
    (significant : kind.isTrivia = false) :
    Forest.significantText (Layout.raw kind text before) = text := by
  simp [Layout.raw, Forest.significantText, Tree.significantText, significant]

theorem significantText_next (first second : Layout) (before : String) :
    Forest.significantText (first.next second before) =
      Forest.significantText (first before) ++
        Forest.significantText (second (first.after before)) := by
  rw [Layout.next, significantText_append]

theorem intercalate_colons (part : List Char) (parts : List (List Char)) :
    [':', ':'].intercalate (part :: parts) = part ++ parts.flatMap ([':', ':'] ++ ·) := by
  induction parts generalizing part with
  | nil => rw [List.intercalate_singleton, List.flatMap_nil, List.append_nil]
  | cons other others ih =>
      rw [List.intercalate_cons_cons, ih, List.flatMap_cons, List.append_assoc, List.append_assoc]

/-- What a path node says: the path as it was before it was split. -/
theorem significantText_pathLayout (path before : String) :
    Forest.significantText (pathLayout (splitPath path.toList) before) = path := by
  let piece (other : List Char) : Layout :=
    (Layout.raw .colonColon "::").next (.raw .identifier (String.ofList other))
  have others (parts : List (List Char)) (start : String) :
      Forest.significantText (Layout.all (parts.map piece) start) =
        String.ofList (parts.flatMap ([':', ':'] ++ ·)) := by
    induction parts generalizing start with
    | nil => rfl
    | cons part rest ih =>
        change Forest.significantText ((piece part).next (Layout.all (rest.map piece)) start) = _
        rw [significantText_next, ih, significantText_next, significantText_raw _ _ _ rfl,
          significantText_raw _ _ _ rfl, List.flatMap_cons, String.ofList_append,
          String.ofList_append]
  have joined := intercalate_splitPath path.toList
  cases split : splitPath path.toList with
  | nil => exact absurd split (splitPath_ne_nil _)
  | cons part rest =>
      rw [split, intercalate_colons] at joined
      rw [pathLayout, significantText_next, significantText_word _ _ _ rfl, others,
        ← String.ofList_append, joined, String.ofList_toList]

/-! ### Fields -/

/-- A word that is written after a text, at its place. -/
def wordAt (text before : String) : Spanned String :=
  Token.spelling ⟨.identifier, text, Layout.wordStart before⟩

def fieldTypeStart (name before : String) : String :=
  (Layout.raw .colon ":").after ((Layout.word .identifier name).after before)

/-- A field whose type has exactly one leaf is kept. -/
def fieldEntry (field : String × TypeExpr) (before : String) : List Field :=
  match field.2.fragments (fieldTypeStart field.1 before) with
  | [type] => [⟨wordAt field.1 before, type⟩]
  | _ => []

def fieldFaults (field : String × TypeExpr) (before : String) : List SemanticError :=
  match field.2.fragments (fieldTypeStart field.1 before) with
  | _ :: _ :: _ => [.functionField field.1 ((fieldContent field).place before)]
  | _ => []

def fieldStart (isFirst : Bool) (before : String) : String :=
  (separator isFirst (.raw .comma ",")).after before

def fieldEntries : List (String × TypeExpr) → Bool → String → List Field
  | [], _, _ => []
  | field :: rest, isFirst, before =>
      let start := fieldStart isFirst before
      fieldEntry field start ++
        fieldEntries rest false ((Layout.node .typeField (fieldContent field)).after start)

def fieldsFaults : List (String × TypeExpr) → Bool → String → List SemanticError
  | [], _, _ => []
  | field :: rest, isFirst, before =>
      let start := fieldStart isFirst before
      fieldFaults field start ++
        fieldsFaults rest false ((Layout.node .typeField (fieldContent field)).after start)

theorem identifier?_field (field : String × TypeExpr) (kind : Kind) (parent : Option Kind)
    (before : String) :
    ((fieldContent field).asNode kind parent before).identifier? =
      some (wordAt field.1 before) := by
  rw [Node.identifier?, Node.identifiers, Layout.tokensOf_asNode, fieldContent,
    Layout.tokensOf_next, Layout.tokensOf_word _ _ _ rfl, if_pos rfl]
  rfl

/-- A field takes the leaves of its type, so it leaves no fragment behind. -/
theorem read_field (field : String × TypeExpr) (parent : Option Kind) (before : String)
    (state : Collection) (clear : state.fragments = []) :
    (Layout.node .typeField (fieldContent field)).read parent before state =
      state.keep (fieldEntry field before) (fieldFaults field before) := by
  have name := identifier?_field field .typeField parent before
  have inside : (fieldContent field).read (some .typeField) before state =
      { state with fragments := field.2.fragments (fieldTypeStart field.1 before) } := by
    rw [fieldContent, Layout.read_next, Layout.read_word, Layout.read_next, Layout.read_raw,
      TypeExpr.read_layout, clear, List.nil_append]
    rfl
  rw [Layout.read_node, inside]
  change Collection.readField _ _ = _
  unfold Collection.readField fieldEntry fieldFaults
  rw [name]
  cases state with
  | mk fragments operands entries program errors =>
      cases clear
      rcases field.2.fragments (fieldTypeStart field.1 before) with
        _ | ⟨type, _ | ⟨second, more⟩⟩ <;>
        simp [Collection.keep, Collection.report, wordAt, Token.spelling, Layout.place,
          Layout.asNode, Node.span, Node.stop]

theorem read_fieldsLayout (fields : List (String × TypeExpr)) (isFirst : Bool)
    (parent : Option Kind) (before : String) (state : Collection)
    (clear : state.fragments = []) :
    (fieldsLayout fields isFirst).read parent before state =
      state.keep (fieldEntries fields isFirst before) (fieldsFaults fields isFirst before) := by
  induction fields generalizing isFirst before state with
  | nil =>
      rw [fieldsLayout, fieldEntries, fieldsFaults, Layout.read_nothing, Collection.keep,
        List.append_nil, List.append_nil]
  | cons field rest ih =>
      rw [fieldsLayout, Layout.read_next,
        silent_separator isFirst (Layout.read_raw .comma ","), Layout.read_next,
        read_field _ _ _ _ clear, ih false _ (state.keep _ _) clear, Collection.keep_keep,
        fieldEntries, fieldsFaults]
      rfl

/-! ### Heads of declarations -/

/-- Where the identifiers of a binding or the word of a type definition start. -/
def headStart (exported : Bool) (before : String) : String :=
  (visibilityLayout exported).after before

def wordsAt : List String → String → List (Spanned String)
  | [], _ => []
  | name :: rest, before =>
      wordAt name before :: wordsAt rest ((Layout.word .identifier name).after before)

theorem map_value_wordsAt (names : List String) (before : String) :
    (wordsAt names before).map Spanned.value = names := by
  induction names generalizing before with
  | nil => rfl
  | cons name rest ih =>
      rw [wordsAt, List.map_cons, ih]
      rfl

theorem silent_words (names : List String) :
    (Layout.all (names.map (Layout.word .identifier))).Silent := by
  apply Layout.silent_all
  intro layout member
  obtain ⟨name, _present, same⟩ := List.mem_map.mp member
  rw [← same]
  exact Layout.read_word .identifier name

theorem silent_pathLayout (parts : List (List Char)) : (pathLayout parts).Silent := by
  cases parts with
  | nil => exact Layout.read_nothing
  | cons part rest =>
      apply Layout.silent_next (Layout.read_word .identifier (String.ofList part))
      apply Layout.silent_all
      intro layout member
      obtain ⟨other, _present, same⟩ := List.mem_map.mp member
      rw [← same]
      exact Layout.silent_next (Layout.read_raw .colonColon "::") (Layout.read_raw .identifier _)

theorem nodes_words (names : List String) (parent : Kind) (before : String) :
    (Layout.all (names.map (Layout.word .identifier))).nodes parent before = [] := by
  induction names generalizing before with
  | nil => rfl
  | cons name rest ih =>
      change ((Layout.word .identifier name).next _).nodes parent before = []
      rw [Layout.nodes_next, Layout.nodes_word, List.nil_append]
      exact ih _

theorem spellings_words (names : List String) (before : String) :
    ((Layout.all (names.map (Layout.word .identifier))).tokensOf .identifier before).map
      Token.spelling = wordsAt names before := by
  induction names generalizing before with
  | nil => rfl
  | cons name rest ih =>
      change (((Layout.word .identifier name).next _).tokensOf .identifier before).map _ = _
      rw [Layout.tokensOf_next, Layout.tokensOf_word _ _ _ rfl, if_pos rfl, List.map_append]
      exact congrArg (wordAt name before :: ·) (ih _)

theorem silent_visibility (exported : Bool) : (visibilityLayout exported).Silent := by
  cases exported with
  | true =>
      intro parent before state
      change (Layout.node .visibility (.word .pubWord "pub")).read parent before state = state
      rw [Layout.read_node, Layout.read_word]
      rfl
  | false => exact Layout.read_nothing

theorem tokensOf_visibility (exported : Bool) (wanted : Kind) (before : String) :
    (visibilityLayout exported).tokensOf wanted before = [] := by
  cases exported <;> rfl

/-- A declaration is exported exactly if it was written so, provided that nothing else in it looks
like a visibility. -/
theorem isExported_asNode (exported : Bool) (content : Layout) (kind : Kind)
    (parent : Option Kind) (before : String)
    (others : ∀ start, ∀ child ∈ content.nodes kind start, child.kind ≠ .visibility) :
    (((visibilityLayout exported).next content).asNode kind parent before).isExported =
      exported := by
  rw [Node.isExported, Node.child?, Layout.nodes_asNode, Layout.nodes_next, List.find?_append]
  cases exported with
  | true =>
      change (((Layout.word .pubWord "pub").asNode .visibility (some kind) before).token?
        .pubWord).isSome = true
      rw [Layout.token?_word _ _ _ _ _ rfl]
      rfl
  | false =>
      have absent : (content.nodes kind (headStart false before)).find?
          (fun child => child.kind = .visibility) = none := by
        rw [List.find?_eq_none]
        intro child member
        rw [decide_eq_true_eq]
        exact others _ child member
      rw [headStart] at absent
      rw [absent]
      rfl

/-! ### Bindings -/

def bodyOperands : Option Term → String → List Expr
  | some term, before => term.operandsAfter before []
  | none, _ => []

def bodyFaults : Option Term → String → List SemanticError
  | some term, before => term.faults before
  | none, _ => []

def bodyStart (exported : Bool) (identifiers : List String) (before : String) : String :=
  (Layout.word .equals "=").after
    ((Layout.all (identifiers.map (Layout.word .identifier))).after (headStart exported before))

/-- What a binding with these identifiers and operands declares. The last operand is its body. -/
def bindingEntry (names : List (Spanned String)) (operands : List Expr) (exported : Bool) :
    List BindingDecl :=
  match names, operands with
  | name :: parameters, body :: _ => [⟨name, parameters.map Spanned.value, body, exported⟩]
  | _, _ => []

def bindingFaults (names : List (Spanned String)) (operands : List Expr) (span : Span) :
    List SemanticError :=
  match names, operands with
  | [], _ => [.bindingWithoutName span]
  | name :: _, [] => [.bindingWithoutBody name.value span]
  | _ :: _, _ :: _ => []

theorem nodes_body (body : Option Term) (parent : Kind) (before : String) :
    ((bodyLayout body).nodes parent before).any (fun child => child.kind.isExpression) =
      body.isSome := by
  cases body with
  | some term =>
      change ([term.content.asNode term.kind (some parent) before].any
        fun child => child.kind.isExpression) = true
      rw [List.any_cons, List.any_nil, Bool.or_false]
      exact term.kind_isExpression
  | none => rfl

theorem read_body (body : Option Term) (parent : Option Kind) (before : String)
    (program : Program) (errors : List SemanticError) :
    (bodyLayout body).read parent before (.settled program errors) =
      (Collection.settled program errors).leave (bodyOperands body before)
        (bodyFaults body before) := by
  cases body with
  | some term => exact term.read_layout parent before (.settled program errors)
  | none =>
      change Collection.settled program errors = _
      exact (Collection.leave_self (.settled program errors)).symm

/-! ### Declarations -/

def typeNameStart (exported : Bool) (before : String) : String :=
  (Layout.word .typeWord "type").after (headStart exported before)

def fieldsStart (exported : Bool) (name before : String) : String :=
  (Layout.word .leftParen "(").after
    ((Layout.word .identifier name).after (typeNameStart exported before))

def Decl.place (decl : Decl) (before : String) : Span := decl.content.place before

def Decl.entries : Decl → String → Program
  | .bringIn path, before =>
      let start := (Layout.word .importWord "import").after before
      { Program.empty with
        imports := [⟨path, (pathLayout (splitPath path.toList)).place start⟩] }
  | .binding exported identifiers body, before =>
      { Program.empty with
        bindings :=
          bindingEntry (wordsAt identifiers (headStart exported before))
            (bodyOperands body (bodyStart exported identifiers before)) exported }
  | .signature name type, before =>
      let start := (Layout.word .colonColon "::").after
        ((Layout.word .identifier name).after before)
      { Program.empty with signatures := [⟨wordAt name before, type.fragments start⟩] }
  | .typeDefinition exported name fields, before =>
      { Program.empty with
        types :=
          [⟨wordAt name (typeNameStart exported before),
            fieldEntries fields true (fieldsStart exported name before), exported⟩] }

def Decl.faults : Decl → String → List SemanticError
  | .bringIn _, _ | .signature .., _ => []
  | .binding exported identifiers body, before =>
      let start := bodyStart exported identifiers before
      bodyFaults body start ++
        bindingFaults (wordsAt identifiers (headStart exported before)) (bodyOperands body start)
          ((Decl.binding exported identifiers body).place before)
  | .typeDefinition exported name fields, before =>
      fieldsFaults fields true (fieldsStart exported name before)

theorem read_import (path : String) (parent : Option Kind) (before : String)
    (program : Program) (errors : List SemanticError) :
    (Decl.bringIn path).layout.read parent before (.settled program errors) =
      .settled (program.append ((Decl.bringIn path).entries before)) errors := by
  let start := (Layout.word .importWord "import").after before
  have chain : ((Decl.bringIn path).content.asNode .importDeclaration parent before).child?
      .accessChain = some ((pathLayout (splitPath path.toList)).asNode .accessChain
        (some .importDeclaration) start) := by
    rw [Node.child?, Layout.nodes_asNode, Decl.content, Layout.nodes_next, Layout.nodes_word,
      Layout.nodes_node]
    rfl
  have said : ((pathLayout (splitPath path.toList)).asNode .accessChain
      (some .importDeclaration) start).significantText = path :=
    significantText_pathLayout path start
  rw [Decl.layout, Layout.read_node, Decl.content, Layout.read_next, Layout.read_word,
    Layout.read_node, silent_pathLayout]
  change Collection.readImport (.settled program errors)
    ((Decl.bringIn path).content.asNode .importDeclaration parent before) = _
  unfold Collection.readImport
  rw [chain]
  dsimp only
  rw [said]
  simp [Collection.settled, Program.append, Program.empty, Decl.entries, start,
    Layout.span_asNode]

theorem names_binding (exported : Bool) (identifiers : List String) (body : Option Term)
    (parent : Option Kind) (before : String) :
    ((Decl.binding exported identifiers body).content.asNode .binding parent before).identifiers =
      wordsAt identifiers (headStart exported before) := by
  have inBody (start : String) : (bodyLayout body).tokensOf .identifier start = [] := by
    cases body <;> rfl
  rw [Node.identifiers, Layout.tokensOf_asNode, Decl.content, Layout.tokensOf_next,
    tokensOf_visibility, List.nil_append, Layout.tokensOf_next, Layout.tokensOf_next,
    Layout.tokensOf_word _ _ _ rfl, inBody, List.map_append, spellings_words]
  exact List.append_nil _

/-- The nodes directly under a binding, behind its visibility: its body, if there is one. -/
theorem nodes_bindingRest (identifiers : List String) (body : Option Term) (parent : Kind)
    (start : String) :
    ((Layout.all (identifiers.map (Layout.word .identifier))).next
      ((Layout.word .equals "=").next (bodyLayout body))).nodes parent start =
      (bodyLayout body).nodes parent
        ((Layout.word .equals "=").after
          ((Layout.all (identifiers.map (Layout.word .identifier))).after start)) := by
  rw [Layout.nodes_next, nodes_words, List.nil_append, Layout.nodes_next, Layout.nodes_word,
    List.nil_append]

theorem isExpression_of_mem_body (body : Option Term) (parent : Kind) (before : String)
    (child : Node) (member : child ∈ (bodyLayout body).nodes parent before) :
    child.kind.isExpression = true := by
  cases body with
  | some term =>
      have same : child = term.content.asNode term.kind (some parent) before :=
        List.mem_singleton.mp member
      rw [same]
      exact term.kind_isExpression
  | none => cases member

theorem isExported_binding (exported : Bool) (identifiers : List String) (body : Option Term)
    (parent : Option Kind) (before : String) :
    ((Decl.binding exported identifiers body).content.asNode .binding parent before).isExported =
      exported := by
  rw [Decl.content]
  apply isExported_asNode
  intro start child member
  rw [nodes_bindingRest] at member
  have expression := isExpression_of_mem_body body _ _ child member
  intro same
  rw [same] at expression
  cases expression

theorem hasBody_binding (exported : Bool) (identifiers : List String) (body : Option Term)
    (parent : Option Kind) (before : String) :
    ((Decl.binding exported identifiers body).content.asNode .binding parent before).nodes.any
      (fun child => child.kind.isExpression) = body.isSome := by
  rw [Layout.nodes_asNode, Decl.content, Layout.nodes_next, nodes_bindingRest, List.any_append,
    nodes_body]
  cases exported <;> rfl

theorem bodyOf?_binding (exported : Bool) (identifiers : List String) (body : Option Term)
    (parent : Option Kind) (before : String) (program : Program)
    (errors faults : List SemanticError) (start : String) :
    ((Collection.settled program errors).leave (bodyOperands body start) faults).bodyOf?
      ((Decl.binding exported identifiers body).content.asNode .binding parent before) =
        (bodyOperands body start).head? := by
  rw [Collection.bodyOf?, hasBody_binding]
  cases body <;> rfl

/-- A binding takes every operand, so it leaves none behind. -/
theorem read_binding (exported : Bool) (identifiers : List String) (body : Option Term)
    (parent : Option Kind) (before : String) (program : Program)
    (errors : List SemanticError) :
    (Decl.binding exported identifiers body).layout.read parent before
        (.settled program errors) =
      .settled (program.append ((Decl.binding exported identifiers body).entries before))
        (errors ++ (Decl.binding exported identifiers body).faults before) := by
  let start := bodyStart exported identifiers before
  let decl := Decl.binding exported identifiers body
  have inside : decl.content.read (some .binding) before (.settled program errors) =
      (Collection.settled program errors).leave (bodyOperands body start)
        (bodyFaults body start) := by
    rw [Decl.content, Layout.read_next, silent_visibility, Layout.read_next, silent_words,
      Layout.read_next, Layout.read_word]
    exact read_body body (some .binding) start program errors
  rw [Decl.layout, Layout.read_node]
  change Collection.readBinding (Layout.read _ (some .binding) _ _)
    (decl.content.asNode .binding parent before) = _
  rw [inside]
  unfold Collection.readBinding
  rw [bodyOf?_binding, Node.identifier?, names_binding, isExported_binding, Decl.entries,
    Decl.faults, Layout.span_asNode]
  change _ = Collection.settled
    (program.append { Program.empty with
      bindings := bindingEntry _ (bodyOperands body start) exported })
    (errors ++ (bodyFaults body start ++
      bindingFaults _ (bodyOperands body start) (decl.place before)))
  rcases bodyOperands body start with _ | ⟨last, others⟩ <;>
    rcases wordsAt identifiers (headStart exported before) with _ | ⟨name, parameters⟩ <;>
    simp [Collection.report, Collection.leave, Collection.settled, BindingDecl.ofHead,
      bindingEntry, bindingFaults, Program.append, Program.empty, Decl.place, decl]

theorem read_signature (name : String) (type : TypeExpr) (parent : Option Kind)
    (before : String) (program : Program) (errors : List SemanticError) :
    (Decl.signature name type).layout.read parent before (.settled program errors) =
      .settled (program.append ((Decl.signature name type).entries before)) errors := by
  have named : ((Decl.signature name type).content.asNode .signature parent before).identifier? =
      some (wordAt name before) := by
    rw [Node.identifier?, Node.identifiers, Layout.tokensOf_asNode, Decl.content,
      Layout.tokensOf_next, Layout.tokensOf_word _ _ _ rfl, if_pos rfl]
    rfl
  rw [Decl.layout, Layout.read_node, Decl.content, Layout.read_next, Layout.read_word,
    Layout.read_next, Layout.read_word, TypeExpr.read_layout]
  change Collection.readSignature _
    ((Decl.signature name type).content.asNode .signature parent before) = _
  unfold Collection.readSignature
  rw [named]
  simp [Collection.settled, Program.append, Program.empty, Decl.entries]

theorem kind_of_mem_fields (fields : List (String × TypeExpr)) (isFirst : Bool) (parent : Kind)
    (before : String) (child : Node)
    (member : child ∈ (fieldsLayout fields isFirst).nodes parent before) :
    child.kind = .typeField := by
  induction fields generalizing isFirst before with
  | nil => cases member
  | cons field rest ih =>
      rw [fieldsLayout, Layout.nodes_next, nodes_separator _ _ _ _ (fun _ => rfl),
        List.nil_append, Layout.nodes_next, Layout.nodes_node, List.singleton_append,
        List.mem_cons] at member
      rcases member with same | later
      · rw [same]
        rfl
      · exact ih false _ later

theorem isExported_typeDefinition (exported : Bool) (name : String)
    (fields : List (String × TypeExpr)) (parent : Option Kind) (before : String) :
    ((Decl.typeDefinition exported name fields).content.asNode .typeDefinition parent
      before).isExported = exported := by
  rw [Decl.content]
  apply isExported_asNode
  intro start child member
  simp only [Layout.nodes_next, Layout.nodes_word, Layout.nodes_raw, List.nil_append,
    List.append_nil] at member
  rw [kind_of_mem_fields fields true _ _ child member]
  decide

theorem read_typeDefinition (exported : Bool) (name : String)
    (fields : List (String × TypeExpr)) (parent : Option Kind) (before : String)
    (program : Program) (errors : List SemanticError) :
    (Decl.typeDefinition exported name fields).layout.read parent before
        (.settled program errors) =
      .settled (program.append ((Decl.typeDefinition exported name fields).entries before))
        (errors ++ (Decl.typeDefinition exported name fields).faults before) := by
  let decl := Decl.typeDefinition exported name fields
  have named : (decl.content.asNode .typeDefinition parent before).identifier? =
      some (wordAt name (typeNameStart exported before)) := by
    rw [Node.identifier?, Node.identifiers, Layout.tokensOf_asNode, Decl.content,
      Layout.tokensOf_next, tokensOf_visibility, Layout.tokensOf_next,
      Layout.tokensOf_word _ _ _ rfl, Layout.tokensOf_next, Layout.tokensOf_word _ _ _ rfl]
    rfl
  have inside : decl.content.read (some .typeDefinition) before (.settled program errors) =
      (Collection.settled program errors).keep
        (fieldEntries fields true (fieldsStart exported name before))
        (fieldsFaults fields true (fieldsStart exported name before)) := by
    rw [Decl.content, Layout.read_next, silent_visibility, Layout.read_next, Layout.read_word,
      Layout.read_next, Layout.read_word, Layout.read_next, Layout.read_word, Layout.read_next,
      Layout.read_raw, read_fieldsLayout _ _ _ _ _ rfl]
    rfl
  rw [Decl.layout, Layout.read_node]
  change Collection.readType (Layout.read _ (some .typeDefinition) _ _)
    (decl.content.asNode .typeDefinition parent before) = _
  rw [inside]
  unfold Collection.readType
  rw [named, isExported_typeDefinition]
  simp [Collection.keep, Collection.settled, Program.append, Program.empty, Decl.entries,
    Decl.faults]

/-- A declaration adds its entries and its faults and leaves nothing else behind. -/
theorem Decl.read_layout (decl : Decl) (parent : Option Kind) (before : String)
    (program : Program) (errors : List SemanticError) :
    decl.layout.read parent before (.settled program errors) =
      .settled (program.append (decl.entries before)) (errors ++ decl.faults before) := by
  cases decl with
  | bringIn path =>
      rw [read_import, Decl.faults, List.append_nil]
  | binding exported identifiers body =>
      exact read_binding exported identifiers body parent before program errors
  | signature name type =>
      rw [read_signature, Decl.faults, List.append_nil]
  | typeDefinition exported name fields =>
      exact read_typeDefinition exported name fields parent before program errors

/-! ### Sources -/

def declStart (isFirst : Bool) (before : String) : String :=
  (separator isFirst (.raw .whitespace "\n")).after before

def entries : List Decl → Bool → String → Program
  | [], _, _ => .empty
  | decl :: rest, isFirst, before =>
      let start := declStart isFirst before
      (decl.entries start).append (entries rest false (decl.layout.after start))

def faults : List Decl → Bool → String → List SemanticError
  | [], _, _ => []
  | decl :: rest, isFirst, before =>
      let start := declStart isFirst before
      decl.faults start ++ faults rest false (decl.layout.after start)

theorem read_declsLayout (decls : List Decl) (isFirst : Bool) (parent : Option Kind)
    (before : String) (program : Program) (errors : List SemanticError) :
    (declsLayout decls isFirst).read parent before (.settled program errors) =
      .settled (program.append (entries decls isFirst before))
        (errors ++ faults decls isFirst before) := by
  induction decls generalizing isFirst before program errors with
  | nil =>
      rw [declsLayout, entries, faults, Layout.read_nothing, Program.append_empty,
        List.append_nil]
  | cons decl rest ih =>
      rw [declsLayout, Layout.read_next,
        silent_separator isFirst (Layout.read_raw .whitespace "\n"), Layout.read_next,
        Decl.read_layout, ih, Program.append_assoc, List.append_assoc]
      rfl

/-- The program of a source, or its faults. -/
theorem ofTree_tree (decls : List Decl) :
    Program.ofTree (tree decls) =
      if (faults decls true "").isEmpty then .ok (entries decls true "")
      else .error (faults decls true "") := by
  have read : Collection.empty.readAll (tree decls).postorder =
      .settled (entries decls true "") (faults decls true "") := by
    have inside := read_declsLayout decls true (some .program) "" .empty []
    have root := Layout.read_node .program (declsLayout decls true) none "" .empty
    change Collection.empty.readAll (Tree.postorderFrom 0 none (tree decls) ++ []) = _ at root
    rw [List.append_nil] at root
    exact root.trans inside
  rw [Program.ofTree, read]
  rfl

end Source

end Bindery
