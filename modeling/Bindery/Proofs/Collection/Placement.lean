import Bindery.Proofs.Spans
import Bindery.Proofs.Syntax.Placement

set_option autoImplicit false

/-! Places stay inside the text. Whatever a tree looks like, everything that reading it records
has the place of a node or of an identifier, or a place that covers two such places, so it stands
inside the text of the tree. Names have the places of identifiers and are found there. -/

namespace Bindery

open Syntax

namespace Collection

structure StandsIn (text : String) (state : Collection) : Prop where
  fragments : ∀ fragment ∈ state.fragments, fragment.span.Inside text
  operands : ∀ operand ∈ state.operands, operand.Placed (Span.Inside text)
  fields : ∀ field ∈ state.fields, ∀ span ∈ field.spans, span.Inside text
  fieldNames : ∀ field ∈ state.fields, field.name.WrittenIn text
  declared : ∀ span ∈ state.program.spans, span.Inside text
  names : ∀ name ∈ state.program.names, name.WrittenIn text
  errors : ∀ error ∈ state.errors, ∀ span ∈ error.spans, span.Inside text

theorem StandsIn.empty (text : String) : empty.StandsIn text where
  fragments := List.forall_mem_nil _
  operands := List.forall_mem_nil _
  fields := List.forall_mem_nil _
  fieldNames := List.forall_mem_nil _
  declared := List.forall_mem_nil _
  names := List.forall_mem_nil _
  errors := List.forall_mem_nil _

/-! ### Operands -/

section Operands

variable {holds : Span → Prop} {operands : List Expr}

theorem placed_combineLast
    (closed : ∀ left right, holds left → holds right → holds (left.join right))
    (operator : Option Operator) (placed : ∀ operand ∈ operands, operand.Placed holds) :
    ∀ operand ∈ combineLast operator operands, operand.Placed holds := by
  unfold combineLast
  split
  · rename_i right left rest symbol
    rw [List.forall_mem_cons, List.forall_mem_cons] at placed
    rw [List.forall_mem_cons]
    exact ⟨.combine closed symbol placed.2.1 placed.1, placed.2.2⟩
  · intro operand member
    exact placed operand (List.mem_of_mem_drop member)

theorem placed_labelLast (label : Option String) {span : Span} (own : holds span)
    (placed : ∀ operand ∈ operands, operand.Placed holds) :
    ∀ operand ∈ labelLast label span operands, operand.Placed holds := by
  cases operands with
  | nil => exact placed
  | cons value rest =>
      rw [List.forall_mem_cons] at placed
      rw [labelLast, List.forall_mem_cons]
      exact ⟨.labelled label own placed.1, placed.2⟩

theorem placed_callLast (count : Nat) {span : Span} (own : holds span)
    (placed : ∀ operand ∈ operands, operand.Placed holds) :
    ∀ operand ∈ callLast count span operands, operand.Placed holds := by
  unfold callLast
  split
  · exact placed
  · rename_i callee rest remaining
    have behind : ∀ operand ∈ callee :: rest, operand.Placed holds := by
      intro operand member
      rw [← remaining] at member
      exact placed operand (List.mem_of_mem_drop member)
    rw [List.forall_mem_cons] at behind
    rw [List.forall_mem_cons]
    refine ⟨.apply own behind.1 ?_, behind.2⟩
    intro argument member
    exact placed argument (List.mem_of_mem_take (List.mem_reverse.mp member))

theorem placed_leafOf? {node : Node} (own : holds node.span) :
    ∀ operand ∈ (leafOf? node).toList, operand.Placed holds := by
  have single (expr : Expr) (spans : expr.spans = [node.span]) : expr.Placed holds := by
    rw [Expr.Placed, spans, List.forall_mem_singleton]
    exact own
  intro operand member
  rw [Option.mem_toList] at member
  unfold leafOf? at member
  split at member
  · obtain rfl := Option.some.inj member
    exact single _ rfl
  · obtain rfl := Option.some.inj member
    exact single _ rfl
  · obtain rfl := Option.some.inj member
    exact single _ rfl
  · obtain rfl := Option.some.inj member
    exact single _ rfl
  · obtain ⟨name, _found, rfl⟩ := Option.map_eq_some_iff.mp member
    exact single _ rfl
  · cases member

theorem placed_operandsAfter
    (closed : ∀ left right, holds left → holds right → holds (left.join right)) {node : Node}
    (own : holds node.span) (placed : ∀ operand ∈ operands, operand.Placed holds) :
    ∀ operand ∈ operandsAfter operands node, operand.Placed holds := by
  unfold operandsAfter
  split
  · exact List.forall_mem_nil _
  · exact placed_combineLast closed _ placed
  · exact placed_labelLast _ own placed
  · exact placed_callLast _ own placed
  · rw [List.forall_mem_append]
    exact ⟨placed_leafOf? own, placed⟩

end Operands

/-! ### Fragments and fields -/

section Step

variable {text : String} {state : Collection} {node : Node}

theorem span_of_fragmentOf? {fragment : Spanned Ty} (found : fragmentOf? node = some fragment) :
    fragment.span = node.span := by
  unfold fragmentOf? at found
  split at found
  · obtain ⟨name, _found, rfl⟩ := Option.map_eq_some_iff.mp found
    rfl
  · obtain rfl := Option.some.inj found
    rfl
  · obtain ⟨name, _found, rfl⟩ := Option.map_eq_some_iff.mp found
    rfl
  · cases found

theorem StandsIn.fragmentsAfter (stands : state.StandsIn text) (own : node.StandsIn text) :
    ∀ fragment ∈ fragmentsAfter state.fragments node, fragment.span.Inside text := by
  unfold Collection.fragmentsAfter
  split
  · exact List.forall_mem_nil _
  · rw [List.forall_mem_append]
    refine ⟨stands.fragments, ?_⟩
    intro fragment member
    rw [span_of_fragmentOf? (Option.mem_toList.mp member)]
    exact own.span_inside

theorem identifier_stands (own : node.StandsIn text) {name : Spanned String}
    (found : node.identifier? = some name) : name.span.Inside text ∧ name.WrittenIn text :=
  own.identifier (List.mem_of_head? found)

theorem fieldFrom?_eq_some {name : Option (Spanned String)} {fragments : List (Spanned Ty)}
    {field : Field} (found : fieldFrom? name fragments = some field) :
    name = some field.name ∧ field.type ∈ fragments := by
  unfold fieldFrom? at found
  split at found
  · obtain rfl := Option.some.inj found
    exact ⟨rfl, List.mem_singleton_self _⟩
  · cases found

/-- A field has the name and the type that stand below it. -/
theorem StandsIn.field (stands : state.StandsIn text) (own : node.StandsIn text) {field : Field}
    (found : fieldFrom? node.identifier? state.fragments = some field) :
    (∀ span ∈ field.spans, span.Inside text) ∧ field.name.WrittenIn text := by
  obtain ⟨named, typed⟩ := fieldFrom?_eq_some found
  obtain ⟨nameInside, written⟩ := identifier_stands own named
  rw [Field.spans, List.forall_mem_cons, List.forall_mem_singleton]
  exact ⟨⟨nameInside, stands.fragments _ typed⟩, written⟩

theorem mem_fieldsAfter {fragments : List (Spanned Ty)} {fields : List Field} {field : Field}
    (member : field ∈ fieldsAfter fragments fields node) :
    field ∈ fields ∨ fieldFrom? node.identifier? fragments = some field := by
  unfold Collection.fieldsAfter at member
  split at member
  · cases member
  · rw [List.mem_append, Option.mem_toList] at member
    exact member
  · exact Or.inl member

/-! ### Declarations -/

theorem StandsIn.imported (own : node.StandsIn text) {path : Spanned String}
    (found : importFrom? node = some path) : path.span.Inside text := by
  obtain ⟨chain, below, rfl⟩ := Option.map_eq_some_iff.mp found
  exact (own.child below).span_inside

theorem StandsIn.body (stands : state.StandsIn text) {body : Expr}
    (found : bodyFrom? node state.operands = some body) : body.Placed (Span.Inside text) := by
  unfold bodyFrom? at found
  split at found
  · exact stands.operands body (List.mem_of_head? found)
  · cases found

theorem StandsIn.binding (stands : state.StandsIn text) (own : node.StandsIn text)
    {exported : Bool} {decl : BindingDecl}
    (found : bindingFrom? node.identifiers (bodyFrom? node state.operands) exported =
      some decl) :
    (∀ span ∈ decl.spans, span.Inside text) ∧ decl.name.WrittenIn text := by
  unfold bindingFrom? at found
  split at found
  · rename_i name parameters body identifiers taken
    obtain rfl := Option.some.inj found
    have named : name ∈ node.identifiers := by
      rw [identifiers]
      exact List.mem_cons_self
    obtain ⟨nameInside, written⟩ := own.identifier named
    rw [BindingDecl.spans, List.forall_mem_cons]
    exact ⟨⟨nameInside, stands.body taken⟩, written⟩
  · cases found

theorem StandsIn.signature (stands : state.StandsIn text) (own : node.StandsIn text)
    {decl : SignatureDecl} (found : signatureFrom? node state.fragments = some decl) :
    (∀ span ∈ decl.spans, span.Inside text) ∧ decl.name.WrittenIn text := by
  obtain ⟨name, named, rfl⟩ := Option.map_eq_some_iff.mp found
  obtain ⟨nameInside, written⟩ := identifier_stands own named
  rw [SignatureDecl.spans, List.forall_mem_cons, List.forall_mem_map]
  exact ⟨⟨nameInside, stands.fragments⟩, written⟩

theorem StandsIn.type (stands : state.StandsIn text) (own : node.StandsIn text)
    {decl : TypeDecl} (found : typeFrom? node state.fields = some decl) :
    (∀ span ∈ decl.spans, span.Inside text) ∧ ∀ name ∈ decl.names, name.WrittenIn text := by
  obtain ⟨name, named, rfl⟩ := Option.map_eq_some_iff.mp found
  obtain ⟨nameInside, written⟩ := identifier_stands own named
  rw [TypeDecl.spans, TypeDecl.names, List.forall_mem_cons, List.forall_mem_cons,
    List.forall_mem_flatMap, List.forall_mem_map]
  exact ⟨⟨nameInside, stands.fields⟩, written, stands.fieldNames⟩

/-- What a node declares has its places inside the text and its names where they are written. -/
theorem StandsIn.declares (stands : state.StandsIn text) (own : node.StandsIn text) :
    (∀ span ∈ (state.declared node).spans, span.Inside text) ∧
      ∀ name ∈ (state.declared node).names, name.WrittenIn text := by
  unfold Collection.declared Program.spans Program.names
  split
  · cases found : importFrom? node with
    | none => simp [Program.empty]
    | some path => simpa [Program.empty] using imported own found
  · cases found : bindingFrom? node.identifiers (bodyFrom? node state.operands)
        node.isExported with
    | none => simp [Program.empty]
    | some decl => simpa [Program.empty] using stands.binding own found
  · cases found : signatureFrom? node state.fragments with
    | none => simp [Program.empty]
    | some decl => simpa [Program.empty] using stands.signature own found
  · cases found : typeFrom? node state.fields with
    | none => simp [Program.empty]
    | some decl => simpa [Program.empty] using stands.type own found
  · simp [Program.empty]

/-! ### Errors -/

/-- Every error of a node points at that node. -/
theorem span_of_mem_faults {error : SemanticError} (member : error ∈ state.faults node) :
    error.spans = [node.span] := by
  unfold Collection.faults at member
  split at member
  · unfold bindingFaults at member
    split at member
    · rw [List.mem_singleton.mp member]
      rfl
    · rw [List.mem_singleton.mp member]
      rfl
    · cases member
  · split at member
    · cases member
    · rw [List.mem_singleton.mp member]
      rfl
  · unfold fieldFaults at member
    split at member
    · rw [List.mem_singleton.mp member]
      rfl
    · cases member
  · unfold integerFaults at member
    split at member
    · cases member
    · rw [List.mem_singleton.mp member]
      rfl
  · unfold floatFaults at member
    split at member
    · cases member
    · rw [List.mem_singleton.mp member]
      rfl
  · cases member

/-! ### The step and the run -/

theorem StandsIn.read (stands : state.StandsIn text) (own : node.StandsIn text) :
    (state.read node).StandsIn text := by
  have joined : ∀ left right : Span, left.Inside text → right.Inside text →
      (left.join right).Inside text := fun _ _ => Span.Inside.join
  obtain ⟨declaredSpans, declaredNames⟩ := stands.declares own
  rw [read_eq_after]
  constructor
  · exact stands.fragmentsAfter own
  · exact placed_operandsAfter joined own.span_inside stands.operands
  · intro field member
    rcases mem_fieldsAfter member with earlier | found
    · exact stands.fields field earlier
    · exact (stands.field own found).1
  · intro field member
    rcases mem_fieldsAfter member with earlier | found
    · exact stands.fieldNames field earlier
    · exact (stands.field own found).2
  · intro span member
    rcases (Program.mem_spans_append _ _ _).mp member with earlier | fresh
    · exact stands.declared span earlier
    · exact declaredSpans span fresh
  · intro name member
    rcases (Program.mem_names_append _ _ _).mp member with earlier | fresh
    · exact stands.names name earlier
    · exact declaredNames name fresh
  · intro error member span inError
    rcases List.mem_append.mp member with earlier | fresh
    · exact stands.errors error earlier span inError
    · rw [span_of_mem_faults fresh, List.mem_singleton] at inError
      rw [inError]
      exact own.span_inside

end Step

theorem StandsIn.readAll {text : String} {state : Collection} {nodes : List Node}
    (stands : state.StandsIn text) (own : ∀ node ∈ nodes, node.StandsIn text) :
    (state.readAll nodes).StandsIn text := by
  induction nodes generalizing state with
  | nil => exact stands
  | cons node rest ih =>
      rw [List.forall_mem_cons] at own
      exact ih (stands.read own.1) own.2

/-- Reading the nodes of a tree leaves nothing that stands outside its text. -/
theorem standsIn_tree (tree : Tree) :
    (Collection.empty.readAll tree.postorder).StandsIn tree.text :=
  (StandsIn.empty tree.text).readAll tree.stands_postorder

end Collection

theorem Program.standsIn_of_ofTree {tree : Tree} {program : Program}
    (built : ofTree tree = .ok program) :
    (∀ span ∈ program.spans, span.Inside tree.text) ∧
      ∀ name ∈ program.names, name.WrittenIn tree.text := by
  have stands := Collection.standsIn_tree tree
  rw [Program.eq_of_ofTree built]
  exact ⟨stands.declared, stands.names⟩

/-- Every place in the program of a tree, or in its errors, covers whole characters of the text of
that tree, and the names that the program gives are written at their places. -/
theorem Program.ofTree_inside (tree : Tree) :
    (∀ span ∈ resultSpans (ofTree tree), span.Inside tree.text) ∧
      ∀ name ∈ resultNames (ofTree tree),
        Text.slice tree.text name.span = some name.value := by
  have stands := Collection.standsIn_tree tree
  unfold ofTree Collection.result
  split
  · exact ⟨stands.declared, stands.names⟩
  · constructor
    · intro span member
      obtain ⟨error, found, inError⟩ := List.mem_flatMap.mp member
      exact stands.errors error found span inError
    · exact List.forall_mem_nil _

end Bindery
