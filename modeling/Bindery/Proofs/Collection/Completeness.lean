import Bindery.Proofs.Collection.Isolation

set_option autoImplicit false

/-! Which declarations of a tree are recorded when no error is reported. Every binding and every
signature is, as the missing parts of these are errors. An import without a path, a definition
without a name and a field without a name or a type are passed over, and so is a field that no
definition takes. -/

namespace Bindery

open Syntax

/-- The nodes of a kind, in the order of reading. -/
def Syntax.Tree.nodesOf (kind : Kind) (tree : Tree) : List Node :=
  tree.postorder.filter fun node => node.kind = kind

namespace Collection

/-! ### Reading without errors -/

theorem errors_readAll (state : Collection) (nodes : List Node) :
    (state.readAll nodes).errors =
      state.errors ++ (visits state nodes).flatMap fun visit => visit.1.faults visit.2 := by
  induction nodes generalizing state with
  | nil => exact (List.append_nil _).symm
  | cons node rest ih =>
      have first : (state.read node).errors = state.errors ++ state.faults node := by
        rw [read_eq_after]
        rfl
      rw [readAll_cons, ih, first, visits, List.flatMap_cons, List.append_assoc]

theorem faults_eq_nil {tree : Tree} {program : Program}
    (declares : Program.ofTree tree = .ok program) :
    ∀ visit ∈ visits empty tree.postorder, visit.1.faults visit.2 = [] := by
  have sound : (empty.readAll tree.postorder).errors = [] := by
    unfold Program.ofTree result at declares
    split at declares
    · exact List.isEmpty_iff.mp ‹_›
    · cases declares
  rw [errors_readAll] at sound
  exact List.flatMap_eq_nil_iff.mp (List.append_eq_nil_iff.mp sound).2

theorem visits_append (state : Collection) (first second : List Node) :
    visits state (first ++ second) =
      visits state first ++ visits (state.readAll first) second := by
  induction first generalizing state with
  | nil => rfl
  | cons node rest ih =>
      rw [List.cons_append, visits, ih]
      rfl

theorem mem_visits_iff {state : Collection} {nodes : List Node} {visit : Collection × Node} :
    visit ∈ visits state nodes ↔
      ∃ before after, nodes = before ++ visit.2 :: after ∧ visit.1 = state.readAll before := by
  constructor
  · intro member
    induction nodes generalizing state with
    | nil => cases member
    | cons node rest ih =>
        rw [visits, List.mem_cons] at member
        rcases member with rfl | later
        · exact ⟨[], rest, rfl, rfl⟩
        · obtain ⟨before, after, split, found⟩ := ih later
          exact ⟨node :: before, after, by rw [split, List.cons_append], found⟩
  · rintro ⟨before, after, rfl, found⟩
    rw [visits_append, ← found]
    exact List.mem_append_right _ List.mem_cons_self

theorem nodes_visits (state : Collection) (nodes : List Node) :
    (visits state nodes).map Prod.snd = nodes := by
  induction nodes generalizing state with
  | nil => rfl
  | cons node rest ih => rw [visits, List.map_cons, ih]

theorem countP_visits (wanted : Node → Bool) (state : Collection) (nodes : List Node) :
    (visits state nodes).countP (fun visit => wanted visit.2) = nodes.countP wanted := by
  have mapped := List.countP_map (p := wanted) (f := Prod.snd) (l := visits state nodes)
  rw [nodes_visits] at mapped
  exact mapped.symm

/-! ### Counting -/

/-- Of the items that should be found, all are found. -/
theorem countP_and_eq_iff {α : Type} (found wanted : α → Bool) (items : List α) :
    items.countP (fun item => found item && wanted item) = items.countP wanted ↔
      ∀ item ∈ items, wanted item = true → found item = true := by
  rw [← List.countP_filter, List.countP_eq_length_filter (p := wanted), List.countP_eq_length]
  simp only [List.mem_filter, and_imp]

theorem length_declared (part : Program → Nat) (own : Node → Bool)
    (additive : ∀ first second, part (first.append second) = part first + part second)
    (nodes : List Node) (state : Collection)
    (each : ∀ visit ∈ visits state nodes,
      part (visit.1.declared visit.2) = if own visit.2 then 1 else 0) :
    part (state.readAll nodes).program = part state.program + nodes.countP own := by
  induction nodes generalizing state with
  | nil => rfl
  | cons node rest ih =>
      rw [visits, List.forall_mem_cons] at each
      have first : part (state.read node).program =
          part state.program + if own node then 1 else 0 := by
        rw [read_eq_after, ← each.1, ← additive]
        rfl
      rw [readAll_cons, ih _ each.2, first, List.countP_cons]
      omega

/-! ### Imports, definitions, bindings and signatures -/

section Declarations

variable {nodes : List Node}

theorem length_imports :
    (empty.readAll nodes).program.imports.length =
      nodes.countP fun node =>
        (node.child? .accessChain).isSome && decide (node.kind = .importDeclaration) := by
  refine (length_declared (fun program => program.imports.length) _
    (fun _ _ => List.length_append) nodes empty ?_).trans (Nat.zero_add _)
  intro visit _member
  by_cases kind : visit.2.kind = .importDeclaration
  · rw [declared, kind, importFrom?]
    cases visit.2.child? .accessChain <;> rfl
  · rw [visit.1.imports_declared_of_ne kind, decide_eq_false kind, Bool.and_false]
    rfl

theorem length_types :
    (empty.readAll nodes).program.types.length =
      nodes.countP fun node =>
        node.identifier?.isSome && decide (node.kind = .typeDefinition) := by
  refine (length_declared (fun program => program.types.length) _
    (fun _ _ => List.length_append) nodes empty ?_).trans (Nat.zero_add _)
  intro visit _member
  by_cases kind : visit.2.kind = .typeDefinition
  · rw [declared, kind, typeFrom?]
    cases visit.2.identifier? <;> rfl
  · rw [visit.1.types_declared_of_ne kind, decide_eq_false kind, Bool.and_false]
    rfl

theorem isSome_bindingFrom? {identifiers : List (Spanned String)} {body : Option Expr}
    {span : Span} (sound : bindingFaults identifiers body span = []) (exported : Bool) :
    (bindingFrom? identifiers body exported).isSome = true := by
  cases identifiers with
  | nil => cases sound
  | cons name parameters =>
      cases body with
      | none => cases sound
      | some expr => rfl

/-- A binding that is not recorded is an error. -/
theorem length_bindings (sound : ∀ visit ∈ visits empty nodes, visit.1.faults visit.2 = []) :
    (empty.readAll nodes).program.bindings.length =
      nodes.countP fun node => node.kind = .binding := by
  refine (length_declared (fun program => program.bindings.length) _
    (fun _ _ => List.length_append) nodes empty ?_).trans (Nat.zero_add _)
  intro visit member
  by_cases kind : visit.2.kind = .binding
  · have faultless := sound visit member
    rw [faults, kind] at faultless
    obtain ⟨decl, bound⟩ :=
      Option.isSome_iff_exists.mp (isSome_bindingFrom? faultless visit.2.isExported)
    rw [declared, kind]
    change (bindingFrom? _ _ _).toList.length = 1
    rw [bound]
    rfl
  · rw [visit.1.bindings_declared_of_ne kind, decide_eq_false kind]
    rfl

/-- A signature that is not recorded is an error. -/
theorem length_signatures (sound : ∀ visit ∈ visits empty nodes, visit.1.faults visit.2 = []) :
    (empty.readAll nodes).program.signatures.length =
      nodes.countP fun node => node.kind = .signature := by
  refine (length_declared (fun program => program.signatures.length) _
    (fun _ _ => List.length_append) nodes empty ?_).trans (Nat.zero_add _)
  intro visit member
  by_cases kind : visit.2.kind = .signature
  · have faultless := sound visit member
    rw [faults, kind] at faultless
    rw [declared, kind, signatureFrom?]
    cases named : visit.2.identifier? with
    | none =>
        rw [named] at faultless
        cases faultless
    | some name => rfl
  · rw [visit.1.signatures_declared_of_ne kind, decide_eq_false kind]
    rfl

end Declarations

/-! ### Fields -/

def fieldCount (program : Program) : Nat := (program.types.flatMap TypeDecl.fields).length

theorem fieldCount_append (first second : Program) :
    fieldCount (first.append second) = fieldCount first + fieldCount second := by
  unfold fieldCount Program.append
  rw [List.flatMap_append, List.length_append]

/-- Whether what stands behind a name is one type, so that a field is left. -/
def leavesField (visit : Collection × Node) : Bool :=
  (fieldFrom? visit.2.identifier? visit.1.fragments).isSome

/-- A field is either left for later or stands in a definition, if all definitions are recorded. -/
theorem fieldCount_read (state : Collection) (node : Node)
    (named : node.kind = .typeDefinition → node.identifier?.isSome = true) :
    fieldCount (state.read node).program + (state.read node).fields.length =
      fieldCount state.program + state.fields.length +
        if leavesField (state, node) && decide (node.kind = .typeField) then 1 else 0 := by
  rw [read_eq_after]
  change fieldCount (state.program.append (state.declared node)) +
    (fieldsAfter state.fragments state.fields node).length = _
  rw [fieldCount_append]
  by_cases definition : node.kind = .typeDefinition
  · obtain ⟨name, found⟩ := Option.isSome_iff_exists.mp (named definition)
    have taken : fieldCount (state.declared node) = state.fields.length := by
      rw [declared, definition, typeFrom?, found]
      change (state.fields ++ []).length = _
      rw [List.append_nil]
    rw [taken, fieldsAfter, definition, decide_eq_false Kind.noConfusion, Bool.and_false]
    rfl
  · have undeclared : fieldCount (state.declared node) = 0 := by
      rw [fieldCount, state.types_declared_of_ne definition]
      rfl
    rw [undeclared]
    by_cases field : node.kind = .typeField
    · rw [fieldsAfter, field, List.length_append, leavesField]
      cases fieldFrom? node.identifier? state.fragments with
      | none => rfl
      | some left => rfl
    · rw [fieldsAfter_of_ne _ _ definition field, decide_eq_false field, Bool.and_false]
      rfl

theorem fieldCount_readAll (state : Collection) (nodes : List Node)
    (named : ∀ node ∈ nodes, node.kind = .typeDefinition → node.identifier?.isSome = true) :
    fieldCount (state.readAll nodes).program + (state.readAll nodes).fields.length =
      fieldCount state.program + state.fields.length +
        (visits state nodes).countP fun visit =>
          leavesField visit && decide (visit.2.kind = .typeField) := by
  induction nodes generalizing state with
  | nil => rfl
  | cons node rest ih =>
      rw [List.forall_mem_cons] at named
      have first := fieldCount_read state node named.1
      have later := ih (state.read node) named.2
      rw [readAll_cons, visits, List.countP_cons]
      dsimp only
      omega

theorem forall_split_cons {holds : Node → List Node → Prop} (first : Node) (rest : List Node) :
    (∀ before node after, first :: rest = before ++ node :: after → holds node after) ↔
      holds first rest ∧
        ∀ before node after, rest = before ++ node :: after → holds node after := by
  constructor
  · intro each
    refine ⟨each [] first rest rfl, ?_⟩
    intro before node after split
    exact each (first :: before) node after (by rw [split, List.cons_append])
  · rintro ⟨head, tail⟩ before node after split
    cases before with
    | nil =>
        cases split
        exact head
    | cons other more =>
        cases split
        exact tail more node after rfl

/-- Fields that were left are all taken in the end if a definition stands behind each of them. -/
theorem fields_eq_nil_iff (state : Collection) (nodes : List Node)
    (left : ∀ visit ∈ visits state nodes,
      visit.2.kind = .typeField → leavesField visit = true) :
    (state.readAll nodes).fields = [] ↔
      (state.fields = [] ∨ ∃ node ∈ nodes, node.kind = .typeDefinition) ∧
        ∀ before node after, nodes = before ++ node :: after →
          node.kind = .typeField → ∃ later ∈ after, later.kind = .typeDefinition := by
  -- Fields that the state holds already need a definition too, so the state is generalised.
  induction nodes generalizing state with
  | nil =>
      have none : ∀ before (node : Node) after, [] ≠ before ++ node :: after := by simp
      simp [readAll, none]
  | cons node rest ih =>
      rw [visits, List.forall_mem_cons] at left
      rw [readAll_cons, ih (state.read node) left.2, forall_split_cons]
      have step : (state.read node).fields = fieldsAfter state.fragments state.fields node := by
        rw [read_eq_after]
        rfl
      rw [step]
      by_cases definition : node.kind = .typeDefinition
      · simp [fieldsAfter, definition]
      · by_cases field : node.kind = .typeField
        · -- The field that is left needs a definition behind it.
          obtain ⟨one, found⟩ := Option.isSome_iff_exists.mp (left.1 field)
          change fieldFrom? node.identifier? state.fragments = some one at found
          have kept : fieldsAfter state.fragments state.fields node ≠ [] := by
            simp [fieldsAfter, field, found]
          constructor
          · rintro ⟨taken, later⟩
            obtain ⟨other, member, kind⟩ := taken.resolve_left kept
            have behind : ∃ later ∈ rest, later.kind = .typeDefinition := ⟨other, member, kind⟩
            exact ⟨.inr ⟨other, List.mem_cons_of_mem node member, kind⟩, fun _ => behind, later⟩
          · rintro ⟨_taken, behind, later⟩
            exact ⟨.inr (behind field), later⟩
        · rw [fieldsAfter_of_ne _ _ definition field]
          simp [definition, field]

theorem isSome_fieldFrom?_iff {name : Option (Spanned String)} {fragments : List (Spanned Ty)}
    {span : Span} (sound : fieldFaults name fragments span = []) :
    (fieldFrom? name fragments).isSome = true ↔ name.isSome = true ∧ fragments ≠ [] := by
  cases name with
  | none => simp [fieldFrom?]
  | some name =>
      rcases fragments with _ | ⟨type, _ | ⟨second, more⟩⟩
      · simp [fieldFrom?]
      · simp [fieldFrom?]
      · cases sound

/-- Without errors a field is left if it has a name and if a type stands behind the last signature
or field before it. -/
theorem leavesField_iff {before : List Node} {node : Node} (field : node.kind = .typeField)
    (sound : (empty.readAll before).faults node = []) :
    leavesField (empty.readAll before, node) = true ↔
      node.identifier?.isSome = true ∧
        ∃ type ∈ fragmentSlot.since before, (fragmentOf? type).isSome = true := by
  rw [faults, field] at sound
  rw [leavesField, isSome_fieldFrom?_iff sound, fragments_since, Ne, List.filterMap_eq_nil_iff]
  simp only [Classical.not_forall, exists_prop, Option.isSome_iff_ne_none, ne_eq]

/-- If all definitions are recorded, a field is missing exactly if its node leaves none or no
definition takes it. -/
theorem fieldCount_eq_iff_left {nodes : List Node}
    (named : ∀ node ∈ nodes, node.kind = .typeDefinition → node.identifier?.isSome = true) :
    fieldCount (empty.readAll nodes).program = (nodes.countP fun node => node.kind = .typeField) ↔
      (∀ visit ∈ visits empty nodes, visit.2.kind = .typeField → leavesField visit = true) ∧
        (empty.readAll nodes).fields = [] := by
  have conserved := fieldCount_readAll empty nodes named
  have nothing : fieldCount empty.program + empty.fields.length = 0 := rfl
  have wanted := countP_visits (fun node => decide (node.kind = .typeField)) empty nodes
  have full := countP_and_eq_iff leavesField (fun visit => decide (visit.2.kind = .typeField))
    (visits empty nodes)
  have bound : (visits empty nodes).countP
      (fun visit => leavesField visit && decide (visit.2.kind = .typeField)) ≤
        (visits empty nodes).countP fun visit => decide (visit.2.kind = .typeField) := by
    apply List.countP_mono_left
    intro visit _member both
    exact (Bool.and_eq_true_iff.mp both).2
  rw [nothing, Nat.zero_add] at conserved
  simp only [decide_eq_true_eq] at full
  rw [← full, ← List.length_eq_zero_iff, ← wanted]
  omega

theorem fieldCount_eq_iff {nodes : List Node}
    (sound : ∀ visit ∈ visits empty nodes, visit.1.faults visit.2 = [])
    (named : ∀ node ∈ nodes, node.kind = .typeDefinition → node.identifier?.isSome = true) :
    fieldCount (empty.readAll nodes).program = (nodes.countP fun node => node.kind = .typeField) ↔
      ∀ before node after, nodes = before ++ node :: after → node.kind = .typeField →
        node.identifier?.isSome = true ∧
          (∃ type ∈ fragmentSlot.since before, (fragmentOf? type).isSome = true) ∧
          ∃ later ∈ after, later.kind = .typeDefinition := by
  rw [fieldCount_eq_iff_left named]
  constructor
  · rintro ⟨left, taken⟩ before node after split field
    have member : (empty.readAll before, node) ∈ visits empty nodes :=
      mem_visits_iff.mpr ⟨before, after, split, rfl⟩
    have found := (leavesField_iff field (sound _ member)).mp (left _ member field)
    have behind := ((fields_eq_nil_iff empty nodes left).mp taken).2 before node after split field
    exact ⟨found.1, found.2, behind⟩
  · intro complete
    have left : ∀ visit ∈ visits empty nodes,
        visit.2.kind = .typeField → leavesField visit = true := by
      rintro ⟨state, node⟩ member field
      obtain ⟨before, after, split, rfl⟩ := mem_visits_iff.mp member
      obtain ⟨name, type, _behind⟩ := complete before node after split field
      exact (leavesField_iff field (sound _ member)).mpr ⟨name, type⟩
    refine ⟨left, (fields_eq_nil_iff empty nodes left).mpr ⟨.inl rfl, ?_⟩⟩
    intro before node after split field
    exact (complete before node after split field).2.2

/-- A tree of which every declaration can be recorded, errors apart: imports have a path,
definitions and fields a name, a type stands behind the last signature or field before a field, and
a definition behind every field. -/
structure Complete (tree : Tree) : Prop where
  imports : ∀ node ∈ tree.nodesOf .importDeclaration, (node.child? .accessChain).isSome = true
  types : ∀ node ∈ tree.nodesOf .typeDefinition, node.identifier?.isSome = true
  fields : ∀ before node after, tree.postorder = before ++ node :: after →
    node.kind = .typeField →
      node.identifier?.isSome = true ∧
        (∃ type ∈ fragmentSlot.since before, (fragmentOf? type).isSome = true) ∧
        ∃ later ∈ after, later.kind = .typeDefinition

end Collection

open Collection

/-- Without errors every binding and every signature of a tree is recorded, and every declaration is
exactly if the tree is complete. -/
theorem Program.ofTree_complete_iff (tree : Tree) (program : Program)
    (declares : ofTree tree = .ok program) :
    program.bindings.length = (tree.nodesOf .binding).length ∧
      program.signatures.length = (tree.nodesOf .signature).length ∧
      (Complete tree ↔
        program.imports.length = (tree.nodesOf .importDeclaration).length ∧
          program.types.length = (tree.nodesOf .typeDefinition).length ∧
          (program.types.flatMap TypeDecl.fields).length =
            (tree.nodesOf .typeField).length) := by
  have sound := faults_eq_nil declares
  rw [eq_of_ofTree declares]
  simp only [Tree.nodesOf, ← List.countP_eq_length_filter]
  refine ⟨length_bindings sound, length_signatures sound, ?_⟩
  rw [length_imports, length_types, countP_and_eq_iff, countP_and_eq_iff]
  constructor
  · intro complete
    have imports : ∀ node ∈ tree.postorder, decide (node.kind = .importDeclaration) = true →
        (node.child? .accessChain).isSome = true := by
      intro node member kind
      exact complete.imports node (List.mem_filter.mpr ⟨member, kind⟩)
    have types : ∀ node ∈ tree.postorder, decide (node.kind = .typeDefinition) = true →
        node.identifier?.isSome = true := by
      intro node member kind
      exact complete.types node (List.mem_filter.mpr ⟨member, kind⟩)
    have named := fun node member kind => types node member (decide_eq_true kind)
    exact ⟨imports, types, (fieldCount_eq_iff sound named).mpr complete.fields⟩
  · rintro ⟨imports, types, fields⟩
    have named := fun node member kind => types node member (decide_eq_true kind)
    refine ⟨?_, ?_, (fieldCount_eq_iff sound named).mp fields⟩
    · intro node member
      obtain ⟨read, kind⟩ := List.mem_filter.mp member
      exact imports node read kind
    · intro node member
      obtain ⟨read, kind⟩ := List.mem_filter.mp member
      exact types node read kind

def sampleComplete : Tree :=
  .node .program [
    .node .importDeclaration [
      .token .importWord "import", .node .accessChain [.token .identifier "io"]],
    .node .typeDefinition [
      .token .typeWord "type", .token .identifier "P",
      .node .typeField [.token .identifier "a", .node .namedType [.token .identifier "int"]],
      .node .typeField [.token .identifier "b", .node .voidType []]],
    .node .signature [.token .identifier "x", .node .namedType [.token .identifier "P"]],
    .node .binding [
      .token .identifier "x", .token .equals "=", .node .intLiteral [.token .integer "1"]]]

theorem Program.ofTree_sampleComplete :
    ∃ program, ofTree sampleComplete = .ok program ∧ Complete sampleComplete ∧
      program.bindings.length = 1 ∧ program.signatures.length = 1 ∧
      (program.types.flatMap TypeDecl.fields).length = 2 := by
  have declares : ofTree sampleComplete = .ok _ := rfl
  obtain ⟨bindings, signatures, complete⟩ := ofTree_complete_iff sampleComplete _ declares
  exact ⟨_, declares, complete.mpr ⟨rfl, rfl, rfl⟩, bindings, signatures, rfl⟩

def sampleNameless : Tree :=
  .node .program [
    .node .typeDefinition [
      .token .typeWord "type", .token .leftParen "(",
      .node .typeField [
        .token .identifier "a", .token .colon ":", .node .namedType [.token .identifier "int"]],
      .token .rightParen ")"]]

/-- A definition without a name is lost with its field, and no error says so. -/
theorem Program.ofTree_sampleNameless :
    ∃ program, ofTree sampleNameless = .ok program ∧
      (sampleNameless.nodesOf .typeDefinition).length = 1 ∧ program.types = [] ∧
      (sampleNameless.nodesOf .typeField).length = 1 ∧
      (program.types.flatMap TypeDecl.fields).length = 0 :=
  ⟨_, rfl, rfl, rfl, rfl, rfl⟩

end Bindery
