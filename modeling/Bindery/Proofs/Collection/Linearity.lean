import Bindery.Proofs.Collection.Step

set_option autoImplicit false

/-! Reading a tree invents nothing, repeats nothing and keeps the order. What a program holds of
literals, names and types stands in the tree as often and in the same order, on every path that
reading takes through malformed nodes. A call never cuts its operands outside of their list. -/

namespace Bindery

open Syntax

namespace Expr

mutual

/-- The literals and names of an expression, from left to right. -/
def leaves : Expr → List Expr
  | .integer value span => [.integer value span]
  | .float value span => [.float value span]
  | .boolean value span => [.boolean value span]
  | .string value span => [.string value span]
  | .identifier name span => [.identifier name span]
  | .binary left _ right _ => left.leaves ++ right.leaves
  | .call callee arguments _ => callee.leaves ++ leavesAll arguments
  | .argument _ value _ => value.leaves

def leavesAll : List Expr → List Expr
  | [] => []
  | expr :: rest => expr.leaves ++ leavesAll rest

end

theorem leavesAll_eq_flatMap (exprs : List Expr) : leavesAll exprs = exprs.flatMap leaves := by
  induction exprs with
  | nil => rfl
  | cons expr rest ih => rw [leavesAll, ih, List.flatMap_cons]

theorem leaves_toArgument (expr : Expr) : expr.toArgument.leaves = expr.leaves := by
  cases expr <;> simp only [toArgument, leaves]

theorem leaves_apply (callee : Expr) (arguments : List Expr) (span : Span) :
    (apply callee arguments span).leaves = callee.leaves ++ arguments.flatMap leaves := by
  rw [apply, leaves, leavesAll_eq_flatMap, List.flatMap_map]
  congr 2
  funext argument
  exact leaves_toArgument argument

end Expr

namespace Collection

theorem leaves_of_leafOf? {node : Node} {expr : Expr} (left : leafOf? node = some expr) :
    expr.leaves = [expr] := by
  unfold leafOf? at left
  split at left
  case h_5 =>
    obtain ⟨name, _found, same⟩ := Option.map_eq_some_iff.mp left
    rw [← same, Expr.leaves]
  case h_6 => cases left
  all_goals rw [← Option.some.inj left, Expr.leaves]

/-! ### Operands -/

/-- The literals and names in the operands, in the order in which they were read. -/
def operandLeaves (operands : List Expr) : List Expr := operands.reverse.flatMap Expr.leaves

theorem operandLeaves_cons (expr : Expr) (rest : List Expr) :
    operandLeaves (expr :: rest) = operandLeaves rest ++ expr.leaves := by
  rw [operandLeaves, List.reverse_cons, List.flatMap_append, List.flatMap_singleton]
  rfl

theorem operandLeaves_append (newer older : List Expr) :
    operandLeaves (newer ++ older) = operandLeaves older ++ operandLeaves newer := by
  rw [operandLeaves, List.reverse_append, List.flatMap_append]
  rfl

theorem operandLeaves_combineLast (operator : Option Operator) (operands : List Expr) :
    (operandLeaves (combineLast operator operands)).Sublist (operandLeaves operands) := by
  have dropped : (operandLeaves (operands.drop 2)).Sublist (operandLeaves operands) := by
    have parts := operandLeaves_append (operands.take 2) (operands.drop 2)
    rw [List.take_append_drop] at parts
    rw [parts]
    exact List.sublist_append_left _ _
  unfold combineLast
  split
  · rename_i right left rest operator
    have same : operandLeaves (.combine left operator right :: rest) =
        operandLeaves (right :: left :: rest) := by
      rw [operandLeaves_cons, operandLeaves_cons, operandLeaves_cons, Expr.combine, Expr.leaves,
        List.append_assoc]
    simp only [same, List.Sublist.refl]
  · exact dropped

theorem operandLeaves_labelLast (label : Option String) (span : Span) (operands : List Expr) :
    operandLeaves (labelLast label span operands) = operandLeaves operands := by
  cases operands with
  | nil => rfl
  | cons value rest => rw [labelLast, operandLeaves_cons, operandLeaves_cons, Expr.leaves]

/-- A call holds its callee first and then its arguments, as they were read. -/
theorem operandLeaves_callLast (count : Nat) (span : Span) (operands : List Expr) :
    operandLeaves (callLast count span operands) = operandLeaves operands := by
  unfold callLast
  split
  · rfl
  · rename_i callee rest found
    have parts := operandLeaves_append (operands.take count) (operands.drop count)
    rw [List.take_append_drop, found, operandLeaves_cons] at parts
    rw [parts, operandLeaves_cons, Expr.leaves_apply, List.append_assoc]
    rfl

theorem operandLeaves_operandsAfter (operands : List Expr) (node : Node) :
    (operandLeaves (operandsAfter operands node)).Sublist
      (operandLeaves operands ++ (leafOf? node).toList) := by
  have kept := List.sublist_append_left (operandLeaves operands) (leafOf? node).toList
  unfold operandsAfter
  split
  · exact List.nil_sublist _
  · exact (operandLeaves_combineLast _ _).trans kept
  · rw [operandLeaves_labelLast]
    exact kept
  · rw [operandLeaves_callLast]
    exact kept
  · cases left : leafOf? node with
    | none =>
        rw [left] at kept
        exact kept
    | some expr =>
        change (operandLeaves (expr :: operands)).Sublist _
        rw [operandLeaves_cons, leaves_of_leafOf? left]
        exact List.Sublist.refl _

/-! ### What a declaration takes -/

def bodyLeaves (bindings : List BindingDecl) : List Expr :=
  bindings.flatMap fun decl => decl.body.leaves

def signatureFragments (signatures : List SignatureDecl) : List (Spanned Ty) :=
  signatures.flatMap SignatureDecl.fragments

def fieldFragments (fields : List Field) : List (Spanned Ty) := fields.map Field.type

def typeFragments (types : List TypeDecl) : List (Spanned Ty) :=
  fieldFragments (types.flatMap TypeDecl.fields)

theorem bodyLeaves_bindingFrom? (node : Node) (operands : List Expr) :
    (bodyLeaves (bindingFrom? node.identifiers (bodyFrom? node operands)
      node.isExported).toList).Sublist (operandLeaves operands) := by
  unfold bindingFrom? bodyFrom?
  split
  · rename_i name parameters body names found
    split at found
    · cases operands with
      | nil => cases found
      | cons last rest =>
          cases found
          rw [operandLeaves_cons]
          change (body.leaves ++ []).Sublist _
          rw [List.append_nil]
          exact List.sublist_append_right _ _
    · cases found
  · exact List.nil_sublist _

theorem signatureFragments_after (state : Collection) (node : Node) :
    (signatureFragments (state.declared node).signatures ++
      fragmentsAfter state.fragments node).Sublist
        (state.fragments ++ (fragmentOf? node).toList) := by
  have kept := List.sublist_append_left state.fragments (fragmentOf? node).toList
  by_cases kind : node.kind = .signature
  · rw [declared, kind, fragmentsAfter, kind, takesFragments, if_pos rfl, List.append_nil]
    refine List.Sublist.trans ?_ kept
    unfold signatureFrom?
    cases node.identifier? with
    | none => exact List.nil_sublist _
    | some name =>
        change (state.fragments ++ []).Sublist _
        simp only [List.append_nil, List.Sublist.refl]
  · rw [state.signatures_declared_of_ne kind, fragmentsAfter]
    split
    · exact List.nil_sublist _
    · exact List.Sublist.refl _

theorem fieldFragments_fieldFrom? (name : Option (Spanned String))
    (fragments : List (Spanned Ty)) :
    (fieldFragments (fieldFrom? name fragments).toList).Sublist fragments := by
  unfold fieldFrom?
  split
  · exact List.Sublist.refl _
  · exact List.nil_sublist _

theorem fieldFragments_append (first second : List Field) :
    fieldFragments (first ++ second) = fieldFragments first ++ fieldFragments second :=
  List.map_append

theorem typeFragments_after (state : Collection) (node : Node) :
    (typeFragments (state.declared node).types ++
      (fieldFragments (fieldsAfter state.fragments state.fields node) ++
        fragmentsAfter state.fragments node)).Sublist
          (fieldFragments state.fields ++ (state.fragments ++ (fragmentOf? node).toList)) := by
  have kept := List.sublist_append_left state.fragments (fragmentOf? node).toList
  by_cases definition : node.kind = .typeDefinition
  · -- A named definition takes the fields, and nothing happens to the fragments.
    rw [declared, definition, fieldsAfter, definition, fragmentsAfter, definition]
    refine List.Sublist.append ?_ (List.Sublist.refl _)
    unfold typeFrom?
    cases node.identifier? with
    | none => exact List.nil_sublist _
    | some name =>
        change (fieldFragments (state.fields ++ [])).Sublist _
        simp only [List.append_nil, List.Sublist.refl]
  · have undeclared : typeFragments (state.declared node).types = [] := by
      rw [state.types_declared_of_ne definition]
      rfl
    rw [undeclared, List.nil_append]
    by_cases field : node.kind = .typeField
    · rw [fieldsAfter, field, fragmentsAfter, field, takesFragments, if_pos rfl,
        List.append_nil, fieldFragments_append]
      exact (List.Sublist.refl _).append
        ((fieldFragments_fieldFrom? node.identifier? state.fragments).trans kept)
    · rw [fieldsAfter_of_ne _ _ definition field, fragmentsAfter]
      refine (List.Sublist.refl _).append ?_
      split
      · exact List.nil_sublist _
      · exact List.Sublist.refl _

/-! ### Ledgers: what is recorded, followed by what may still be -/

def leafLedger (state : Collection) : List Expr :=
  bodyLeaves state.program.bindings ++ operandLeaves state.operands

def signatureLedger (state : Collection) : List (Spanned Ty) :=
  signatureFragments state.program.signatures ++ state.fragments

def typeLedger (state : Collection) : List (Spanned Ty) :=
  typeFragments state.program.types ++ (fieldFragments state.fields ++ state.fragments)

theorem leafLedger_read (state : Collection) (node : Node) :
    (state.read node).leafLedger.Sublist (state.leafLedger ++ (leafOf? node).toList) := by
  rw [read_eq_after]
  change (bodyLeaves (state.program.bindings ++ (state.declared node).bindings) ++
    operandLeaves (operandsAfter state.operands node)).Sublist _
  rw [bodyLeaves, List.flatMap_append, leafLedger, List.append_assoc, List.append_assoc]
  refine (List.Sublist.refl _).append ?_
  by_cases kind : node.kind = .binding
  · rw [declared, kind, operandsAfter, kind]
    change (bodyLeaves _ ++ []).Sublist _
    rw [List.append_nil]
    exact (bodyLeaves_bindingFrom? node state.operands).trans (List.sublist_append_left _ _)
  · rw [state.bindings_declared_of_ne kind]
    exact operandLeaves_operandsAfter state.operands node

theorem signatureLedger_read (state : Collection) (node : Node) :
    (state.read node).signatureLedger.Sublist
      (state.signatureLedger ++ (fragmentOf? node).toList) := by
  rw [read_eq_after]
  change (signatureFragments (state.program.signatures ++ (state.declared node).signatures) ++
    fragmentsAfter state.fragments node).Sublist _
  rw [signatureFragments, List.flatMap_append, signatureLedger, List.append_assoc,
    List.append_assoc]
  exact (List.Sublist.refl _).append (signatureFragments_after state node)

theorem typeLedger_read (state : Collection) (node : Node) :
    (state.read node).typeLedger.Sublist (state.typeLedger ++ (fragmentOf? node).toList) := by
  rw [read_eq_after]
  change (typeFragments (state.program.types ++ (state.declared node).types) ++
    (fieldFragments (fieldsAfter state.fragments state.fields node) ++
      fragmentsAfter state.fragments node)).Sublist _
  rw [typeFragments, List.flatMap_append, fieldFragments_append, typeLedger, List.append_assoc,
    List.append_assoc, List.append_assoc]
  exact (List.Sublist.refl _).append (typeFragments_after state node)

/-- A ledger that grows by what each node leaves is covered by what all of them leave. -/
theorem ledger_readAll {α : Type} (ledger : Collection → List α) (leave? : Node → Option α)
    (step : ∀ state node,
      (ledger (state.read node)).Sublist (ledger state ++ (leave? node).toList))
    (state : Collection) (nodes : List Node) :
    (ledger (state.readAll nodes)).Sublist (ledger state ++ nodes.filterMap leave?) := by
  induction nodes generalizing state with
  | nil =>
      rw [List.filterMap_nil, List.append_nil]
      exact List.Sublist.refl _
  | cons node rest ih =>
      have first := (step state node).append (List.Sublist.refl (rest.filterMap leave?))
      have later := (ih (state.read node)).trans first
      rw [List.append_assoc] at later
      rw [List.filterMap_cons]
      cases left : leave? node with
      | none =>
          rw [left] at later
          exact later
      | some item =>
          rw [left] at later
          exact later

/-! ### No type node is used twice -/

/-- How often a type stands in signatures and in fields, and among the fragments that are still to
be taken. -/
def uses (fragment : Spanned Ty) (state : Collection) : Nat :=
  (signatureFragments state.program.signatures).count fragment + state.typeLedger.count fragment

theorem typeLedger_read_signature (state : Collection) {node : Node}
    (kind : node.kind = .signature) :
    (state.read node).typeLedger =
      typeFragments state.program.types ++ fieldFragments state.fields := by
  rw [read_eq_after]
  change typeFragments (state.program.types ++ (state.declared node).types) ++
    (fieldFragments (fieldsAfter state.fragments state.fields node) ++
      fragmentsAfter state.fragments node) = _
  rw [declared, kind, fieldsAfter, kind, fragmentsAfter, kind, takesFragments, if_pos rfl]
  change typeFragments (state.program.types ++ []) ++ (_ ++ []) = _
  rw [List.append_nil, List.append_nil]

theorem uses_read (fragment : Spanned Ty) (state : Collection) (node : Node) :
    (state.read node).uses fragment ≤
      state.uses fragment + (fragmentOf? node).toList.count fragment := by
  have types := (typeLedger_read state node).count_le fragment
  have taken := (signatureFragments_after state node).count_le fragment
  have signatures : (signatureFragments (state.read node).program.signatures).count fragment =
      (signatureFragments state.program.signatures).count fragment +
        (signatureFragments (state.declared node).signatures).count fragment := by
    rw [read_eq_after, ← List.count_append, signatureFragments, signatureFragments,
      signatureFragments, ← List.flatMap_append]
    rfl
  rw [List.count_append] at types
  rw [List.count_append, List.count_append] at taken
  unfold uses
  rw [signatures]
  by_cases kind : node.kind = .signature
  · -- The signature takes the fragments, which end the other ledger, and leaves the fields.
    rw [state.typeLedger_read_signature kind, typeLedger, List.count_append, List.count_append,
      List.count_append]
    omega
  · rw [state.signatures_declared_of_ne kind]
    change _ + 0 + _ ≤ _
    omega

theorem uses_readAll (fragment : Spanned Ty) (state : Collection) (nodes : List Node) :
    (state.readAll nodes).uses fragment ≤
      state.uses fragment + (nodes.filterMap fragmentOf?).count fragment := by
  induction nodes generalizing state with
  | nil => exact Nat.le_refl _
  | cons node rest ih =>
      have first := uses_read fragment state node
      have later := ih (state.read node)
      have seen : ((node :: rest).filterMap fragmentOf?).count fragment =
          (fragmentOf? node).toList.count fragment +
            (rest.filterMap fragmentOf?).count fragment := by
        rw [← List.count_append, List.filterMap_cons]
        cases fragmentOf? node <;> rfl
      change ((state.read node).readAll rest).uses fragment ≤ _
      omega

/-! ### Calls on a stack -/

/-- The items in front of an index and those behind it; `none` if the index is out of range. -/
def splitOff? {α : Type} (index : Nat) (items : List α) : Option (List α × List α) :=
  if index ≤ items.length then some (items.take index, items.drop index) else none

/-- A call on operands in the order of reading, with every step that can fail. The arguments are cut
off first, and then the callee is taken. -/
def callOn? (count : Nat) (span : Span) (stack : List Expr) : Option (List Expr) :=
  if stack.length < count + 1 then some stack
  else
    (splitOff? (stack.length - (count + 1) + 1) stack).map fun parts =>
      match parts.1.getLast? with
      | none => parts.1
      | some callee => parts.1.dropLast ++ [.apply callee parts.2 span]

/-- The cut of a call is always in range. -/
theorem callOn?_reverse (count : Nat) (span : Span) (operands : List Expr) :
    callOn? count span operands.reverse = some (callLast count span operands).reverse := by
  have remaining := List.length_drop (l := operands) (i := count)
  unfold callOn? callLast
  rw [List.length_reverse]
  cases found : operands.drop count with
  | nil =>
      rw [found, List.length_nil] at remaining
      rw [if_pos (by omega)]
  | cons callee rest =>
      rw [found, List.length_cons] at remaining
      have within : operands.length - (count + 1) + 1 = (callee :: rest).length := by
        rw [List.length_cons]
        omega
      have parts : operands.reverse =
          (callee :: rest).reverse ++ (operands.take count).reverse := by
        rw [← found, ← List.reverse_append, List.take_append_drop]
      have cut : splitOff? (callee :: rest).reverse.length operands.reverse =
          some ((callee :: rest).reverse, (operands.take count).reverse) := by
        rw [splitOff?, parts, List.length_append, if_pos (Nat.le_add_right _ _),
          List.take_left, List.drop_left]
      rw [if_neg (by omega), within, ← List.length_reverse, cut, Option.map_some,
        List.reverse_cons, List.getLast?_concat, List.dropLast_concat, List.reverse_cons]

/-- Reading a node where a call works on a stack that can fail. -/
def readChecked? (state : Collection) (node : Node) : Option Collection :=
  if node.kind = .call then
    (callOn? (argumentCount node) node.span state.operands.reverse).map fun stack =>
      { state with operands := stack.reverse }
  else some (state.read node)

theorem readChecked?_eq (state : Collection) (node : Node) :
    state.readChecked? node = some (state.read node) := by
  unfold readChecked?
  by_cases kind : node.kind = .call
  · have read : state.read node = state.readCall node := by
      rw [Collection.read, kind]
    rw [if_pos kind, callOn?_reverse, Option.map_some, List.reverse_reverse, read, readCall_eq,
      leave, List.append_nil]
  · rw [if_neg kind]

theorem foldlM_readChecked? (state : Collection) (nodes : List Node) :
    nodes.foldlM readChecked? state = some (state.readAll nodes) := by
  induction nodes generalizing state with
  | nil => rfl
  | cons node rest ih =>
      rw [List.foldlM_cons, readChecked?_eq]
      exact ih (state.read node)

end Collection

open Collection

/-- Reading a tree never fails to cut a call from its operands. The literals and names of all bodies
form a part of those in the tree, in the same order, and so do the types of all signatures and those
of all fields; no type node is used for both. -/
theorem Program.ofTree_linear (tree : Tree) :
    (tree.postorder.foldlM readChecked? Collection.empty).map Collection.result =
        some (ofTree tree) ∧
      ∀ program, ofTree tree = .ok program →
        (program.bindings.flatMap fun decl => decl.body.leaves).Sublist
            (tree.postorder.filterMap leafOf?) ∧
          (program.signatures.flatMap SignatureDecl.fragments).Sublist
            (tree.postorder.filterMap fragmentOf?) ∧
          ((program.types.flatMap TypeDecl.fields).map Field.type).Sublist
            (tree.postorder.filterMap fragmentOf?) ∧
          ∀ fragment,
            (program.signatures.flatMap SignatureDecl.fragments).count fragment +
                ((program.types.flatMap TypeDecl.fields).map Field.type).count fragment ≤
              (tree.postorder.filterMap fragmentOf?).count fragment := by
  constructor
  · rw [foldlM_readChecked?]
    rfl
  · intro program declares
    have leaves := ledger_readAll leafLedger leafOf? leafLedger_read .empty tree.postorder
    have signatures :=
      ledger_readAll signatureLedger fragmentOf? signatureLedger_read .empty tree.postorder
    have types := ledger_readAll typeLedger fragmentOf? typeLedger_read .empty tree.postorder
    rw [eq_of_ofTree declares]
    refine ⟨(List.sublist_append_left _ _).trans leaves,
      (List.sublist_append_left _ _).trans signatures,
      (List.sublist_append_left _ _).trans types, ?_⟩
    intro fragment
    have both := uses_readAll fragment .empty tree.postorder
    have unused : Collection.empty.uses fragment = 0 := rfl
    rw [unused, Nat.zero_add, uses, typeLedger, List.count_append] at both
    exact Nat.le_trans (Nat.add_le_add_left (Nat.le_add_right _ _) _) both

/-- A stray type, a signature within a type definition, and a call whose last argument takes the
operand of the one before it, so that the callee is left behind. -/
def sampleTangled : Tree :=
  .node .program [
    .node .typeDefinition [
      .token .typeWord "type", .token .identifier "P",
      .node .typeField [
        .token .identifier "a", .node .namedType [.token .identifier "int"]],
      .node .namedType [.token .identifier "int"],
      .node .signature [
        .token .identifier "f", .token .colonColon "::",
        .node .namedType [.token .identifier "f64"]],
      .node .variableType [.token .identifier "t"]],
    .node .binding [
      .token .identifier "x", .token .equals "=",
      .node .call [
        .node .identExpr [.token .identifier "f"],
        .node .argument [.node .intLiteral [.token .integer "1"]],
        .node .argument [
          .node .binaryExpr [
            .token .plus "+", .node .intLiteral [.token .integer "2"]]]]],
    .node .binding [
      .token .identifier "y", .token .equals "=",
      .node .binaryExpr [
        .node .intLiteral [.token .integer "3"], .token .plus "+",
        .node .identExpr [.token .identifier "z"]]]]

theorem Program.ofTree_sampleTangled :
    ∃ program, ofTree sampleTangled = .ok program ∧
      (program.bindings.flatMap fun decl => decl.body.leaves).Sublist
        (sampleTangled.postorder.filterMap leafOf?) ∧
      (program.bindings.flatMap fun decl => decl.body.leaves).length = 4 ∧
      (sampleTangled.postorder.filterMap leafOf?).length = 5 ∧
      (program.signatures.flatMap SignatureDecl.fragments).Sublist
        (sampleTangled.postorder.filterMap fragmentOf?) ∧
      (program.signatures.flatMap SignatureDecl.fragments).length = 2 ∧
      (sampleTangled.postorder.filterMap fragmentOf?).length = 4 := by
  have declares : ofTree sampleTangled = .ok _ := rfl
  obtain ⟨leaves, signatures, _types, _uses⟩ := (ofTree_linear sampleTangled).2 _ declares
  exact ⟨_, declares, leaves, rfl, rfl, signatures, rfl, rfl⟩

end Bindery
