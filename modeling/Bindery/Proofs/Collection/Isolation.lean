import Bindery.Proofs.Collection.Provenance
import Bindery.Proofs.Syntax.Shelter

set_option autoImplicit false

/-! What a declaration takes. It takes all that was left behind, wherever that stood, so what a
stray node has left is recorded with the next declaration. In a tree without stray nodes a
declaration is made of the nodes below it. -/

namespace Bindery

open Syntax

namespace Collection

/-! ### What is left behind, and for whom -/

def fragmentSlot : Slot where
  leaves
    | .namedType | .voidType | .variableType => true
    | _ => false
  takes := takesFragments

def operandSlot : Slot where
  leaves
    | .intLiteral | .floatLiteral | .stringLiteral | .boolLiteral | .identExpr => true
    | _ => false
  takes kind := kind = .binding

def fieldSlot : Slot where
  leaves kind := kind = .typeField
  takes kind := kind = .typeDefinition

/-- The field that a node leaves if it takes the fragments below it. -/
def fieldWithin? (node : Node) : Option Field :=
  if node.kind = .typeField then
    fieldFrom? node.identifier? (node.below.filterMap fragmentOf?)
  else none

def fieldsWithin (fields : List Field) (node : Node) : List Field :=
  if node.kind = .typeDefinition then [] else fields ++ (fieldWithin? node).toList

theorem fragmentOf?_eq_none (node : Node) (idle : fragmentSlot.leaves node.kind = false) :
    fragmentOf? node = none := by
  unfold fragmentOf?
  split
  case h_4 => rfl
  all_goals
    rename_i kind
    rw [kind] at idle
    cases idle

theorem governs_fragments : fragmentSlot.Governs fragmentsAfter where
  taken _items _node takes := if_pos takes
  kept node idle := by
    rw [fragmentsAfter, fragmentOf?_eq_none node idle]
    exact ite_self []

theorem governs_operands : operandSlot.Governs operandsAfter where
  taken items node takes := by
    rw [operandsAfter, of_decide_eq_true takes]
  kept node idle := by
    unfold operandsAfter leafOf?
    unfold operandSlot at idle
    cases kind : node.kind <;> simp_all [combineLast, labelLast, callLast]

theorem governs_fields : fieldSlot.Governs fieldsWithin where
  taken _items _node takes := if_pos (of_decide_eq_true takes)
  kept node idle := by
    rw [fieldsWithin, fieldWithin?, if_neg (of_decide_eq_false idle)]
    exact ite_self []

/-! ### Runs without a node that takes -/

theorem foldl_eq_filterMap {α : Type} (step : List α → Node → List α) (leave? : Node → Option α)
    (nodes : List Node)
    (each : ∀ node ∈ nodes, ∀ items, step items node = items ++ (leave? node).toList)
    (items : List α) : nodes.foldl step items = items ++ nodes.filterMap leave? := by
  induction nodes generalizing items with
  | nil => exact (List.append_nil _).symm
  | cons node rest ih =>
      rw [List.forall_mem_cons] at each
      rw [List.foldl_cons, ih each.2, each.1, List.append_assoc, List.filterMap_cons]
      cases leave? node with
      | none => rfl
      | some left => rfl

theorem foldl_fragmentsAfter {nodes : List Node}
    (idle : ∀ node ∈ nodes, takesFragments node.kind = false) :
    nodes.foldl fragmentsAfter [] = nodes.filterMap fragmentOf? := by
  apply foldl_eq_filterMap
  intro node member items
  rw [fragmentsAfter, idle node member, if_neg Bool.false_ne_true]

theorem foldl_fieldsWithin {nodes : List Node}
    (idle : ∀ node ∈ nodes, fieldSlot.takes node.kind = false) :
    nodes.foldl fieldsWithin [] = nodes.filterMap fieldWithin? := by
  apply foldl_eq_filterMap
  intro node member items
  exact if_neg (of_decide_eq_false (idle node member))

/-! ### What any declaration takes -/

/-- In every tree a signature or a field takes what was left since the last one, be it below the
node or not. -/
theorem fragments_since (nodes : List Node) :
    (empty.readAll nodes).fragments = (fragmentSlot.since nodes).filterMap fragmentOf? := by
  have run : (empty.readAll nodes).fragments = nodes.foldl fragmentsAfter [] :=
    (List.foldl_hom Collection.fragments fun state node =>
      congrArg Collection.fragments (read_eq_after state node).symm).symm
  rw [run, governs_fragments.foldl_since]
  exact foldl_fragmentsAfter (fragmentSlot.takes_since nodes)

/-! ### The state that every node finds -/

def visits (state : Collection) : List Node → List (Collection × Node)
  | [] => []
  | node :: rest => (state, node) :: visits (state.read node) rest

/-- A part of the state that changes by a step of its own is found as that step leaves it. -/
theorem mem_stops {α : Type} (part : Collection → List α) (step : List α → Node → List α)
    (nodes : List Node) (state : Collection)
    (each : ∀ visit ∈ visits state nodes,
      part (visit.1.read visit.2) = step (part visit.1) visit.2) :
    ∀ visit ∈ visits state nodes,
      (part visit.1, visit.2) ∈ Slot.stops step (part state) nodes := by
  induction nodes generalizing state with
  | nil => exact List.forall_mem_nil _
  | cons node rest ih =>
      rw [visits, List.forall_mem_cons] at each
      rw [visits, List.forall_mem_cons]
      refine ⟨List.mem_cons_self, ?_⟩
      intro visit member
      have later := ih (state.read node) each.2 visit member
      rw [each.1] at later
      exact List.mem_cons_of_mem _ later

/-- Declarations of one kind are those that the nodes declare, if each does so by itself. -/
theorem declared_readAll {α : Type} (part : Program → List α) (own? : Node → Option α)
    (additive : ∀ first second, part (first.append second) = part first ++ part second)
    (nodes : List Node) (state : Collection)
    (each : ∀ visit ∈ visits state nodes,
      part (visit.1.declared visit.2) = (own? visit.2).toList) :
    part (state.readAll nodes).program = part state.program ++ nodes.filterMap own? := by
  induction nodes generalizing state with
  | nil => exact (List.append_nil _).symm
  | cons node rest ih =>
      rw [visits, List.forall_mem_cons] at each
      have first : part (state.read node).program =
          part state.program ++ (own? node).toList := by
        rw [read_eq_after, ← each.1, ← additive]
        rfl
      rw [readAll, List.foldl_cons, ← readAll, ih _ each.2, first, List.append_assoc,
        List.filterMap_cons]
      cases own? node with
      | none => rfl
      | some decl => rfl

/-! ### Declarations of a tree without stray nodes -/

def signatureWithin? (node : Node) : Option SignatureDecl :=
  if node.kind = .signature then signatureFrom? node (node.below.filterMap fragmentOf?) else none

def typeWithin? (node : Node) : Option TypeDecl :=
  if node.kind = .typeDefinition then typeFrom? node (node.below.filterMap fieldWithin?) else none

def bodyWithin? (node : Node) : Option Expr :=
  bodyFrom? node (node.below.foldl operandsAfter [])

def bindingWithin? (node : Node) : Option BindingDecl :=
  if node.kind = .binding then
    bindingFrom? node.identifiers (bodyWithin? node) node.isExported
  else none

variable {tree : Tree}

theorem fragments_found (sheltered : tree.sheltered fragmentSlot false = true)
    {visit : Collection × Node} (member : visit ∈ visits empty tree.postorder)
    (takes : takesFragments visit.2.kind = true) :
    visit.1.fragments = visit.2.below.filterMap fragmentOf? := by
  have stop := mem_stops Collection.fragments fragmentsAfter tree.postorder empty
    (fun visit _ => congrArg Collection.fragments (read_eq_after visit.1 visit.2)) visit member
  obtain ⟨found, idle⟩ := tree.own_stops governs_fragments 0 none sheltered _ stop takes
  exact found.trans (foldl_fragmentsAfter idle)

theorem operands_found (sheltered : tree.sheltered operandSlot false = true)
    {visit : Collection × Node} (member : visit ∈ visits empty tree.postorder)
    (takes : visit.2.kind = .binding) :
    visit.1.operands = visit.2.below.foldl operandsAfter [] := by
  have stop := mem_stops Collection.operands operandsAfter tree.postorder empty
    (fun visit _ => congrArg Collection.operands (read_eq_after visit.1 visit.2)) visit member
  exact (tree.own_stops governs_operands 0 none sheltered _ stop (decide_eq_true takes)).1

/-- A field is made of the fragments below it, so the fields change by a step of their own. -/
theorem fields_read (sheltered : tree.sheltered fragmentSlot false = true)
    {visit : Collection × Node} (member : visit ∈ visits empty tree.postorder) :
    (visit.1.read visit.2).fields = fieldsWithin visit.1.fields visit.2 := by
  rw [read_eq_after]
  change fieldsAfter visit.1.fragments visit.1.fields visit.2 = _
  unfold fieldsAfter fieldsWithin fieldWithin?
  split
  · rename_i kind
    rw [if_pos kind]
  · rename_i kind
    have found := fragments_found sheltered member (by rw [kind]; rfl)
    rw [found, kind, if_pos rfl, if_neg Kind.noConfusion]
  · rename_i noDefinition noField
    rw [if_neg noDefinition, if_neg noField]
    exact (List.append_nil _).symm

theorem fields_found (sheltered : tree.sheltered fragmentSlot false = true)
    (fieldsSheltered : tree.sheltered fieldSlot false = true)
    {visit : Collection × Node} (member : visit ∈ visits empty tree.postorder)
    (takes : visit.2.kind = .typeDefinition) :
    visit.1.fields = visit.2.below.filterMap fieldWithin? := by
  have stop := mem_stops Collection.fields fieldsWithin tree.postorder empty
    (fun visit member => fields_read sheltered member) visit member
  obtain ⟨found, idle⟩ :=
    tree.own_stops governs_fields 0 none fieldsSheltered _ stop (decide_eq_true takes)
  exact found.trans (foldl_fieldsWithin idle)

theorem signatures_sheltered (sheltered : tree.sheltered fragmentSlot false = true) :
    (empty.readAll tree.postorder).program.signatures =
      tree.postorder.filterMap signatureWithin? := by
  apply declared_readAll Program.signatures signatureWithin? (fun _ _ => rfl)
  intro visit member
  unfold declared signatureWithin?
  by_cases kind : visit.2.kind = .signature
  · have found := fragments_found sheltered member (by rw [kind]; rfl)
    rw [if_pos kind, kind, found]
  · rw [if_neg kind]
    split <;> trivial

theorem types_sheltered (sheltered : tree.sheltered fragmentSlot false = true)
    (fieldsSheltered : tree.sheltered fieldSlot false = true) :
    (empty.readAll tree.postorder).program.types = tree.postorder.filterMap typeWithin? := by
  apply declared_readAll Program.types typeWithin? (fun _ _ => rfl)
  intro visit member
  unfold declared typeWithin?
  by_cases kind : visit.2.kind = .typeDefinition
  · have found := fields_found sheltered fieldsSheltered member kind
    rw [if_pos kind, kind, found]
  · rw [if_neg kind]
    split <;> trivial

theorem bindings_sheltered (sheltered : tree.sheltered operandSlot false = true) :
    (empty.readAll tree.postorder).program.bindings =
      tree.postorder.filterMap bindingWithin? := by
  apply declared_readAll Program.bindings bindingWithin? (fun _ _ => rfl)
  intro visit member
  unfold declared bindingWithin? bodyWithin?
  by_cases kind : visit.2.kind = .binding
  · have found := operands_found sheltered member kind
    rw [if_pos kind, kind, found]
  · rw [if_neg kind]
    split <;> trivial

theorem bindingFrom?_body {identifiers : List (Spanned String)} {body : Option Expr}
    {exported : Bool} {decl : BindingDecl}
    (bound : bindingFrom? identifiers body exported = some decl) : body = some decl.body := by
  unfold bindingFrom? at bound
  split at bound
  · cases bound
    rfl
  · cases bound

theorem bindingWithin?_madeFrom {node : Node} {decl : BindingDecl}
    (bound : bindingWithin? node = some decl) : decl.body.MadeFrom node.below := by
  have own := madeFrom_foldl node.below (fun _ member => member) [] (List.forall_mem_nil _)
  unfold bindingWithin? at bound
  split at bound
  · have body := bindingFrom?_body bound
    unfold bodyWithin? bodyFrom? at body
    split at body
    · exact own decl.body (List.mem_of_head? body)
    · cases body
  · cases bound

/-- Whether all that is left behind stands within the declaration that takes it, and no such
declaration within another. -/
def isolated (tree : Tree) : Bool :=
  tree.sheltered fragmentSlot false && tree.sheltered fieldSlot false &&
    tree.sheltered operandSlot false

end Collection

open Collection

/-- In a tree without stray nodes every declaration is made of the nodes below it: a signature of
all fragments there, a type definition of the fields there, each with the fragment below it, and a
body of expressions there. -/
theorem Program.ofTree_of_isolated (tree : Tree) (program : Program)
    (alone : isolated tree = true) (declares : ofTree tree = .ok program) :
    program.signatures = tree.postorder.filterMap signatureWithin? ∧
      program.types = tree.postorder.filterMap typeWithin? ∧
      program.bindings = tree.postorder.filterMap bindingWithin? ∧
      ∀ decl ∈ program.bindings, ∃ node ∈ tree.postorder,
        bindingWithin? node = some decl ∧ decl.body.MadeFrom node.below := by
  rw [isolated, Bool.and_eq_true, Bool.and_eq_true] at alone
  obtain ⟨⟨fragments, fields⟩, operands⟩ := alone
  rw [eq_of_ofTree declares]
  have bindings := bindings_sheltered operands
  refine ⟨signatures_sheltered fragments, types_sheltered fragments fields, bindings, ?_⟩
  intro decl member
  rw [bindings] at member
  obtain ⟨node, read, bound⟩ := List.mem_filterMap.mp member
  exact ⟨node, read, bound, bindingWithin?_madeFrom bound⟩

def sampleIsolated : Tree :=
  .node .program [
    .node .typeDefinition [
      .token .typeWord "type", .token .identifier "P",
      .node .typeField [
        .token .identifier "a", .node .namedType [.token .identifier "int"]]],
    .node .signature [
      .token .identifier "f", .token .colonColon "::",
      .node .namedType [.token .identifier "f64"]],
    .node .binding [
      .token .identifier "f", .token .equals "=",
      .node .intLiteral [.token .integer "1"]]]

theorem Program.ofTree_sampleIsolated :
    isolated sampleIsolated = true ∧ ∃ program, ofTree sampleIsolated = .ok program ∧
      program.signatures.map SignatureDecl.fragments = [[⟨.float, ⟨12, 15⟩⟩]] ∧
      program.signatures = sampleIsolated.postorder.filterMap signatureWithin? ∧
      ∀ decl ∈ program.bindings, ∃ node ∈ sampleIsolated.postorder,
        bindingWithin? node = some decl ∧ decl.body.MadeFrom node.below := by
  have declares : ofTree sampleIsolated = .ok _ := rfl
  have found := ofTree_of_isolated sampleIsolated _ rfl declares
  exact ⟨rfl, _, declares, rfl, found.1, found.2.2.2⟩

def sampleStray : Tree :=
  .node .program [
    .node .namedType [.token .identifier "int"],
    .node .signature [
      .token .identifier "f", .token .colonColon "::",
      .node .namedType [.token .identifier "f64"]],
    .node .intLiteral [.token .integer "1"],
    .node .binding [
      .token .identifier "x", .token .equals "=",
      .node .parenExpr [.token .leftParen "(", .token .rightParen ")"]],
    .node .typeField [
      .token .identifier "a", .token .colon ":", .node .namedType [.token .identifier "int"]],
    .node .typeDefinition [.token .typeWord "type", .token .identifier "P"]]

def belowOf (kind : Kind) (tree : Tree) : List (List Node) :=
  (tree.postorder.filter fun node => node.kind = kind).map Node.below

/-- A type, a literal and a field that stand by themselves are recorded with the next signature, the
next binding and the next type definition, which have one type, no literal and no field below
them. -/
theorem Program.ofTree_sampleStray :
    ∃ program, ofTree sampleStray = .ok program ∧
      (belowOf .signature sampleStray).map (List.filterMap fragmentOf?) =
        [[⟨.float, ⟨6, 9⟩⟩]] ∧
      program.signatures.map SignatureDecl.fragments =
        [[⟨.int, ⟨0, 3⟩⟩, ⟨.float, ⟨6, 9⟩⟩]] ∧
      (belowOf .binding sampleStray).map (List.map Node.kind) = [[.parenExpr]] ∧
      program.bindings.map BindingDecl.body = [.integer 1 ⟨9, 10⟩] ∧
      belowOf .typeDefinition sampleStray = [[]] ∧
      program.types.map TypeDecl.fields =
        [[⟨⟨"a", ⟨14, 15⟩⟩, ⟨.int, ⟨16, 19⟩⟩⟩]] :=
  ⟨_, rfl, rfl, rfl, rfl, rfl, rfl, rfl⟩

end Bindery
