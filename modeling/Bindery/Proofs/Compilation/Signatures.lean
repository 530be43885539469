import Bindery.Proofs.Collection.Linearity
import Bindery.Proofs.Compilation.Attribution
import Bindery.Proofs.Table.References
import Bindery.Proofs.Ty.Signature

set_option autoImplicit false

/-! What can be said of a signature by its text. The types in the table of a unit were made by type
nodes, so none of them refers to a name that has a type of its own. If the names in two signatures
can be read, the same text is expected of both only if they are the same. -/

namespace Bindery

open Syntax

/-! ### The types of a compiled table -/

theorem Collection.normal_of_fragmentOf? {node : Node} {fragment : Spanned Ty}
    (left : fragmentOf? node = some fragment) : fragment.value.Normal := by
  unfold fragmentOf? at left
  split at left
  · obtain ⟨token, _found, rfl⟩ := Option.map_eq_some_iff.mp left
    exact Ty.normal_ofName token.text
  · obtain rfl := Option.some.inj left
    trivial
  · obtain ⟨token, _found, rfl⟩ := Option.map_eq_some_iff.mp left
    trivial
  · cases left

/-- The types of signatures come from type nodes. -/
theorem Program.normal_of_ofTree {tree : Tree} {program : Program}
    (declares : ofTree tree = .ok program) :
    ∀ decl ∈ program.signatures, ∀ fragment ∈ decl.fragments, fragment.value.Normal := by
  intro decl declared fragment member
  have ledger := Collection.ledger_readAll Collection.signatureLedger Collection.fragmentOf?
    Collection.signatureLedger_read .empty tree.postorder
  have recorded : fragment ∈ (Collection.empty.readAll tree.postorder).signatureLedger := by
    rw [Collection.signatureLedger, ← eq_of_ofTree declares]
    exact List.mem_append_left _ (List.mem_flatMap.mpr ⟨decl, declared, member⟩)
  obtain ⟨node, _read, left⟩ := List.mem_filterMap.mp (ledger.subset recorded)
  exact Collection.normal_of_fragmentOf? left

theorem Table.normal_of_ofTree {environment : Environment} {tree : Tree} {table : Table}
    (compiled : ofTree environment tree = .ok table) {type : Ty} (inside : table.InSignature type) :
    type.Normal := by
  obtain ⟨program, declares, _accepted, rfl⟩ := ofTree_eq_ok_iff.mp compiled
  obtain ⟨decl, declared, fragment, within, rfl⟩ := declared_of_inSignature inside
  exact Program.normal_of_ofTree declares decl declared fragment within

/-- Every type in the signature of a binding can be read, if it has one. -/
def Binding.Legible (binding : Binding) : Prop :=
  ∀ types, binding.signature = some types → ∀ type ∈ types, type.Legible

namespace Compilation

variable {configuration : Configuration} {units : List SourceUnit}

theorem tableOf_eq_ok {compilation : Compilation} {name : Option String} {table : Table}
    (found : compilation.tableOf name = .ok table) :
    ∃ unit ∈ compilation.units, unit.table = some table := by
  unfold tableOf at found
  cases name with
  | none =>
      cases first : compilation.units.head? with
      | none =>
          rw [first] at found
          cases found
      | some unit =>
          refine ⟨unit, List.mem_of_head? first, ?_⟩
          simp only [first, pure_bind] at found
          cases own : unit.table with
          | none =>
              rw [own] at found
              cases found
          | some built =>
              rw [own] at found
              exact congrArg some (Except.ok.inj found)
  | some name =>
      cases named : compilation.unit? name with
      | none =>
          simp only [named] at found
          cases found
      | some unit =>
          refine ⟨unit, (unit?_eq_some named).1, ?_⟩
          simp only [named, pure_bind] at found
          cases own : unit.table with
          | none =>
              rw [own] at found
              cases found
          | some built =>
              rw [own] at found
              exact congrArg some (Except.ok.inj found)

theorem ofTree_of_table {unit : CompiledUnit} {table : Table}
    (member : unit ∈ (build configuration units).units) (has : unit.table = some table) :
    Table.ofTree configuration.environment unit.source.tree = .ok table := by
  rw [units_build] at member
  obtain ⟨source, _added, rfl⟩ := List.mem_map.mp member
  change (Table.ofTree configuration.environment source.tree).toOption = some table at has
  change Table.ofTree configuration.environment source.tree = .ok table
  cases compiled : Table.ofTree configuration.environment source.tree with
  | error errors =>
      rw [compiled] at has
      cases has
  | ok built =>
      rw [compiled] at has
      exact congrArg Except.ok (Option.some.inj has)

/-- A binding that is found under a name, in the table of a unit or of the first one. -/
def Finds (compilation : Compilation) (unit : Option String) (name : String) (binding : Binding) :
    Prop :=
  ∃ table, compilation.tableOf unit = .ok table ∧ table.binding name = .ok binding

theorem normal_of_signature {unit : Option String} {name : String} {binding : Binding}
    {types : List Ty} (found : (build configuration units).Finds unit name binding)
    (signed : binding.signature = some types) : ∀ type ∈ types, type.Normal := by
  intro type inside
  obtain ⟨table, hasTable, bound⟩ := found
  obtain ⟨compiled, member, has⟩ := tableOf_eq_ok hasTable
  exact Table.normal_of_ofTree (ofTree_of_table member has)
    ⟨name, binding, types, Table.binding_eq_ok_iff.mp bound, signed, inside⟩

/-- A signature is expected by its text. -/
theorem check_signature {compilation : Compilation} {unit : Option String} {name : String}
    {binding : Binding} (found : compilation.Finds unit name binding) (text : String) :
    Expectation.check compilation (.binding name unit [.signature text]) = .ok () ↔
      binding.signature.map Ty.renderSignature = some text := by
  obtain ⟨table, hasTable, bound⟩ := found
  simp only [Expectation.check, hasTable, bound, bind, Except.bind]
  rw [forM_eq_ok_iff, List.forall_mem_singleton, Property.check, expect_eq_ok_iff,
    decide_eq_true_eq]

/-- The text of a signature determines its types, where no name could be taken for something else.
So the signature of a compiled binding is as expected exactly if its text is, and a text that is
expected of two bindings is that of both only if they have the same signature. -/
theorem signature_text_determines :
    (∀ first second : List Ty, (∀ type ∈ first, type.Normal ∧ type.Legible) →
      (∀ type ∈ second, type.Normal ∧ type.Legible) →
        Ty.renderSignature first = Ty.renderSignature second → first = second) ∧
    ∀ (configuration : Configuration) (units : List SourceUnit),
      let compilation := build configuration units
      ∀ unit name binding, compilation.Finds unit name binding → binding.Legible →
        (∀ expected : List Ty, (∀ type ∈ expected, type.Normal ∧ type.Legible) →
          (Expectation.check compilation
              (.binding name unit [.signature (Ty.renderSignature expected)]) = .ok () ↔
            binding.signature = some expected)) ∧
        ∀ otherUnit otherName other, compilation.Finds otherUnit otherName other →
          other.Legible → ∀ text,
            Expectation.check compilation (.binding name unit [.signature text]) = .ok () →
              Expectation.check compilation
                (.binding otherName otherUnit [.signature text]) = .ok () →
                  binding.signature = other.signature := by
  refine ⟨?_, ?_⟩
  · intro first second firstFine secondFine same
    exact Ty.eq_of_renderSignature_eq firstFine secondFine same
  · intro configuration units compilation unit name binding found legible
    have own : ∀ types, binding.signature = some types →
        ∀ type ∈ types, type.Normal ∧ type.Legible := fun types signed type inside =>
      ⟨normal_of_signature found signed type inside, legible types signed type inside⟩
    have expected : ∀ expected : List Ty, (∀ type ∈ expected, type.Normal ∧ type.Legible) →
        (Expectation.check compilation
            (.binding name unit [.signature (Ty.renderSignature expected)]) = .ok () ↔
          binding.signature = some expected) := by
      intro expected fine
      rw [check_signature found, Option.map_eq_some_iff]
      constructor
      · rintro ⟨types, signed, same⟩
        rw [signed, Ty.eq_of_renderSignature_eq (own types signed) fine same]
      · intro signed
        exact ⟨expected, signed, rfl⟩
    refine ⟨expected, ?_⟩
    intro otherUnit otherName other otherFound otherLegible text met otherMet
    rw [check_signature otherFound, Option.map_eq_some_iff] at otherMet
    obtain ⟨types, signed, rfl⟩ := otherMet
    rw [signed]
    exact (expected types fun type inside =>
      ⟨normal_of_signature otherFound signed type inside,
        otherLegible types signed type inside⟩).mp met

/-- A signature for a binding: `f = 1` and `f :: List -> 'a`. -/
def sampleSigned : SourceUnit :=
  ⟨"main", "f=1f::List->'a", .node .program [
    .node .binding [
      .token .identifier "f", .token .equals "=", .node .intLiteral [.token .integer "1"]],
    .node .signature [
      .token .identifier "f", .token .colonColon "::", .node .arrowType [
        .node .namedType [.token .identifier "List"], .token .arrow "->",
        .node .variableType [.token .quote "'", .token .identifier "a"]]]]⟩

theorem signature_text_determines_sample :
    let compilation := build {} [sampleSigned]
    Ty.readSignature "-> -> '" = [.named "->", .variable ""] ∧
      ∃ binding, compilation.Finds none "f" binding ∧ binding.Legible ∧
        (Expectation.check compilation (.binding "f" none
            [.signature (Ty.renderSignature [.named "List", .variable "a"])]) = .ok () ↔
          binding.signature = some [.named "List", .variable "a"]) := by
  intro compilation
  obtain ⟨determines, compiled⟩ := signature_text_determines
  have types : ∀ type ∈ [Ty.named "List", .variable "a"], type.Normal ∧ type.Legible := by decide
  have found : ∃ binding, compilation.Finds none "f" binding ∧
      binding.signature = some [.named "List", .variable "a"] := ⟨_, ⟨_, rfl, rfl⟩, rfl⟩
  obtain ⟨binding, finds, signed⟩ := found
  have legible : binding.Legible := by
    intro signature present type inside
    rw [signed] at present
    exact (types type (Option.some.inj present ▸ inside)).2
  refine ⟨determines _ _ (by decide +kernel) (by decide) (by decide +kernel), binding, finds,
    legible, ?_⟩
  exact (compiled {} [sampleSigned] none "f" binding finds legible).1 _ types

end Compilation

end Bindery
