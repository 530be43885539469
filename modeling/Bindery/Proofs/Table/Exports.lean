import Bindery.Proofs.Table.Acceptance
import Bindery.Proofs.Table.Consistency

set_option autoImplicit false

/-! What other units see of a table. Bindings that are not exported can be left out of a program,
each with its signatures, and neither the exports of its table nor the answers about them change.
A name that is bound but not exported is answered as one that is not bound. -/

namespace Bindery

namespace Table

/-! ### Exports decide the answers -/

theorem exportedBinding_eq_error {table : Table} {name : String} {error : SemanticError}
    (absent : table.exportedBinding name = .error error) : error = .notExported name := by
  unfold exportedBinding at absent
  split at absent
  · cases absent
  · exact (Except.error.inj absent).symm

theorem exportedBinding_of_exports {table other : Table} (consistent : table.Consistent)
    (otherConsistent : other.Consistent) (same : table.exports = other.exports) (name : String) :
    table.exportedBinding name = other.exportedBinding name := by
  cases found : other.exportedBinding name with
  | ok binding =>
      rw [exportedBinding_eq_ok_iff otherConsistent, ← same] at found
      exact (exportedBinding_eq_ok_iff consistent name binding).mpr found
  | error error =>
      obtain rfl := exportedBinding_eq_error found
      cases absent : table.exportedBinding name with
      | ok binding =>
          rw [exportedBinding_eq_ok_iff consistent, same,
            ← exportedBinding_eq_ok_iff otherConsistent, found] at absent
          cases absent
      | error error => rw [exportedBinding_eq_error absent]

end Table

namespace Program

variable {environment : Environment} {program : Program}

theorem Accepted.consistent (accepted : program.Accepted environment) :
    (program.table environment).Consistent where
  bindings := .ofItems accepted.bindingsDistinct _
  bindingsNamed entry member := by
    obtain ⟨decl, _declared, rfl⟩ := List.mem_map.mp member
    rfl
  types := .ofItems accepted.typesDistinct _
  typesNamed entry member := by
    obtain ⟨decl, _declared, rfl⟩ := List.mem_map.mp member
    rfl
  typesNew name member := by
    obtain ⟨decl, declared, rfl⟩ := List.mem_map.mp member
    exact accepted.typesNew decl declared

/-! ### Leaving out bindings -/

/-- Whether a binding that is left out has the name. -/
def hides (program : Program) (hidden : BindingDecl → Bool) (name : String) : Bool :=
  program.bindings.any fun decl => hidden decl && decl.name.value = name

/-- The program without some of its bindings, and without all signatures for their names. -/
def without (program : Program) (hidden : BindingDecl → Bool) : Program :=
  { program with
    bindings := program.bindings.filter fun decl => !hidden decl
    signatures := program.signatures.filter fun decl => !program.hides hidden decl.name.value }

variable {hidden : BindingDecl → Bool}

theorem hides_iff {name : String} :
    program.hides hidden name = true ↔
      ∃ decl ∈ program.bindings, hidden decl = true ∧ decl.name.value = name := by
  rw [hides, List.any_eq_true]
  simp only [Bool.and_eq_true, decide_eq_true_eq]

theorem Accepted.without (accepted : program.Accepted environment) (hidden : BindingDecl → Bool) :
    (program.without hidden).Accepted environment where
  typesDistinct := accepted.typesDistinct
  typesNew := accepted.typesNew
  fieldsKnown := accepted.fieldsKnown
  bindingsDistinct := accepted.bindingsDistinct.sublist (List.filter_sublist.map _)
  signaturesBound decl member := by
    obtain ⟨declared, kept⟩ := List.mem_filter.mp member
    obtain ⟨bound, present, same⟩ := accepted.signaturesBound decl declared
    refine ⟨bound, List.mem_filter.mpr ⟨present, ?_⟩, same⟩
    rw [Bool.not_eq_true', Bool.eq_false_iff] at kept ⊢
    exact fun left => kept (hides_iff.mpr ⟨bound, present, left, same⟩)
  fragmentsKnown decl member :=
    accepted.fragmentsKnown decl (List.mem_filter.mp member).1

/-- As names are distinct, no binding that is left out has the name of one that stays. -/
theorem Accepted.hides_eq (accepted : program.Accepted environment) {decl : BindingDecl}
    (declared : decl ∈ program.bindings) : program.hides hidden decl.name.value = hidden decl := by
  rw [Bool.eq_iff_iff, hides_iff]
  constructor
  · rintro ⟨other, present, left, same⟩
    obtain rfl := List.inj_on_of_nodup_map accepted.bindingsDistinct present declared same
    exact left
  · intro left
    exact ⟨decl, declared, left, rfl⟩

theorem signedBinding_without {decl : BindingDecl}
    (kept : program.hides hidden decl.name.value = false) :
    signedBinding (program.without hidden).signatures decl =
      signedBinding program.signatures decl := by
  have same : ((program.without hidden).signatures.filter fun signature =>
      signature.name.value = decl.name.value) =
        program.signatures.filter fun signature => signature.name.value = decl.name.value := by
    change (program.signatures.filter _).filter _ = _
    rw [List.filter_filter]
    apply List.filter_congr
    intro signature _declared
    by_cases named : signature.name.value = decl.name.value
    · rw [named, kept]
      simp
    · simp [named]
  unfold signedBinding lastSignature?
  rw [same]

theorem exports_table (accepted : program.Accepted environment) :
    (program.table environment).exports =
      (program.bindings.filter BindingDecl.exported).map (signedBinding program.signatures) := by
  change (bindingEntries _ _).values.filter _ = _
  rw [values_bindingEntries accepted.bindingsDistinct, List.filter_map]
  rfl

theorem exports_table_without (accepted : program.Accepted environment)
    (unexported : ∀ decl ∈ program.bindings, hidden decl = true → decl.exported = false) :
    ((program.without hidden).table environment).exports = (program.table environment).exports := by
  have bindings : (program.without hidden).bindings.filter BindingDecl.exported =
      program.bindings.filter BindingDecl.exported := by
    change (program.bindings.filter _).filter _ = _
    rw [List.filter_filter]
    apply List.filter_congr
    intro decl declared
    cases left : hidden decl with
    | false => simp
    | true => simp [unexported decl declared left]
  rw [exports_table accepted, exports_table (accepted.without hidden), bindings]
  apply List.map_congr_left
  intro decl member
  obtain ⟨declared, exported⟩ := List.mem_filter.mp member
  apply signedBinding_without
  rw [accepted.hides_eq declared, Bool.eq_false_iff]
  intro left
  rw [unexported decl declared left] at exported
  cases exported

/-- Bindings that are not exported can be left out of a program with their signatures: it still has
a table, with the same imports and types, and other units cannot tell it from the one before, be it
from the exports or from what is answered about any name. -/
theorem exports_of_without {table : Table} (built : Table.ofProgram environment program = .ok table)
    (hidden : BindingDecl → Bool)
    (unexported : ∀ decl ∈ program.bindings, hidden decl = true → decl.exported = false) :
    ∃ smaller, Table.ofProgram environment (program.without hidden) = .ok smaller ∧
      smaller.imports = table.imports ∧ smaller.types = table.types ∧
      smaller.environment = table.environment ∧ smaller.exports = table.exports ∧
      ∀ name, smaller.exportedBinding name = table.exportedBinding name := by
  obtain ⟨accepted, rfl⟩ := ofProgram_eq_ok_iff.mp built
  have fewer := accepted.without hidden
  have same := exports_table_without accepted unexported
  exact ⟨_, ofProgram_of_accepted environment _ fewer, rfl, rfl, rfl, same,
    Table.exportedBinding_of_exports fewer.consistent accepted.consistent same⟩

def sampleExporting : Program where
  imports := [⟨"std::io", ⟨7, 14⟩⟩]
  bindings := [
    ⟨⟨"helper", ⟨15, 21⟩⟩, ["x"], .identifier "x" ⟨26, 27⟩, false⟩,
    ⟨⟨"area", ⟨32, 36⟩⟩, [], .identifier "helper" ⟨39, 45⟩, true⟩]
  signatures := [
    ⟨⟨"helper", ⟨46, 52⟩⟩, [⟨.named "Size", ⟨56, 60⟩⟩]⟩,
    ⟨⟨"area", ⟨61, 65⟩⟩, [⟨.int, ⟨69, 72⟩⟩, ⟨.named "Size", ⟨76, 80⟩⟩]⟩]
  types := [⟨⟨"Size", ⟨86, 90⟩⟩, [], false⟩]

theorem exports_of_without_sample :
    let hidden := fun decl : BindingDecl => decide (decl.name.value = "helper")
    (∀ decl ∈ sampleExporting.bindings, hidden decl = true → decl.exported = false) ∧
      (sampleExporting.without hidden).bindings.length = 1 ∧
      ∃ table, Table.ofProgram .prelude sampleExporting = .ok table ∧
        ∃ smaller, Table.ofProgram .prelude (sampleExporting.without hidden) = .ok smaller ∧
          smaller.imports = table.imports ∧ smaller.types = table.types ∧
          smaller.environment = table.environment ∧ smaller.exports = table.exports ∧
          ∀ name, smaller.exportedBinding name = table.exportedBinding name := by
  have unexported : ∀ decl ∈ sampleExporting.bindings,
      decide (decl.name.value = "helper") = true → decl.exported = false := by decide
  exact ⟨unexported, rfl, _, rfl, exports_of_without rfl _ unexported⟩

end Program

end Bindery
