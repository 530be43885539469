import Bindery.Proofs.Table.Faults

set_option autoImplicit false

/-! Which programs have a table, said without an order of checks: no name is taken twice, every
signature has its binding, and every type that is used is known. A program without a table is
refused with the first of its faults. -/

namespace Bindery.Program

/-- A name that stands for a type where the program is compiled. -/
def Known (environment : Environment) (program : Program) (name : String) : Prop :=
  name ∈ environment.names ∨ ∃ decl ∈ program.types, decl.name.value = name

structure Accepted (environment : Environment) (program : Program) : Prop where
  typesDistinct : (program.types.map fun decl => decl.name.value).Nodup
  typesNew : ∀ decl ∈ program.types,
    decl.name.value ∉ ["int", "f64", "void"] ∧ decl.name.value ∉ environment.names
  fieldsKnown : ∀ decl ∈ program.types, ∀ field ∈ decl.fields, ∀ name,
    field.type.value = .named name → program.Known environment name
  bindingsDistinct : (program.bindings.map fun decl => decl.name.value).Nodup
  signaturesBound : ∀ decl ∈ program.signatures,
    ∃ bound ∈ program.bindings, bound.name.value = decl.name.value
  /-- This holds of a signature that a later one replaces as well. -/
  fragmentsKnown : ∀ decl ∈ program.signatures, ∀ fragment ∈ decl.fragments, ∀ name,
    fragment.value = .named name → program.Known environment name

/-! ### When a check finds no fault -/

theorem knowsType_iff (environment : Environment) (program : Program) (name : String) :
    knowsType environment program.types name = true ↔ program.Known environment name := by
  unfold knowsType Known Environment.contains
  rw [Bool.or_eq_true, List.contains_iff_mem, List.any_eq_true]
  simp only [decide_eq_true_eq]

theorem useFaults_eq_nil_iff (environment : Environment) (program : Program)
    (type : Spanned Ty) :
    useFaults environment program.types type = [] ↔
      ∀ name, type.value = .named name → program.Known environment name := by
  unfold useFaults
  cases type.value with
  | named name =>
      rw [unless_eq_nil_iff, knowsType_iff]
      constructor
      · intro known other same
        cases same
        exact known.1
      · intro known
        exact ⟨known name rfl, rfl⟩
  | void | «variable» | int | float =>
      constructor
      · intro _none name impossible
        cases impossible
      · intro _known
        rfl

theorem bindingFaults_eq_nil_iff (before : List BindingDecl) (decl : BindingDecl) :
    bindingFaults before decl = [] ↔
      (∀ earlier ∈ before, earlier.name.value ≠ decl.name.value) ∧ True := by
  rw [← find?_name_eq_none_iff before fun earlier => earlier.name.value]
  unfold bindingFaults
  cases before.find? fun earlier => earlier.name.value = decl.name.value with
  | some first => simp
  | none => simp

theorem signatureFaults_eq_nil_iff (environment : Environment) (program : Program)
    (decl : SignatureDecl) :
    signatureFaults environment program decl = [] ↔
      (∃ bound ∈ program.bindings, bound.name.value = decl.name.value) ∧
        ∀ fragment ∈ decl.fragments, ∀ name, fragment.value = .named name →
          program.Known environment name := by
  have bound : (program.bindings.any fun bound => bound.name.value = decl.name.value) = true ↔
      ∃ bound ∈ program.bindings, bound.name.value = decl.name.value := by
    rw [List.any_eq_true]
    simp only [decide_eq_true_eq]
  rw [signatureFaults, unless_eq_nil_iff, bound, List.flatMap_eq_nil_iff]
  simp only [useFaults_eq_nil_iff]

/-! ### When a program is without a fault -/

theorem faults_eq_nil_iff (environment : Environment) (program : Program) :
    program.faults environment = [] ↔ program.Accepted environment := by
  unfold faults
  rw [List.append_eq_nil_iff, List.append_eq_nil_iff, List.append_eq_nil_iff,
    faultsAfter_nil_eq_nil_iff _ _ _ (typeFaults_eq_nil_iff environment),
    faultsAfter_nil_eq_nil_iff _ _ _ bindingFaults_eq_nil_iff,
    List.flatMap_eq_nil_iff, List.flatMap_eq_nil_iff]
  simp only [useFaults_eq_nil_iff, signatureFaults_eq_nil_iff, List.mem_flatMap]
  constructor
  · rintro ⟨⟨⟨types, fields⟩, bindings⟩, signatures⟩
    exact
      { typesDistinct := types.1
        typesNew := types.2
        fieldsKnown := fun decl member field inside => fields field ⟨decl, member, inside⟩
        bindingsDistinct := bindings.1
        signaturesBound := fun decl member => (signatures decl member).1
        fragmentsKnown := fun decl member => (signatures decl member).2 }
  · intro accepted
    refine ⟨⟨⟨⟨accepted.typesDistinct, accepted.typesNew⟩, ?_⟩,
      accepted.bindingsDistinct, fun _decl _member => trivial⟩, ?_⟩
    · rintro field ⟨decl, member, inside⟩
      exact accepted.fieldsKnown decl member field inside
    · intro decl member
      exact ⟨accepted.signaturesBound decl member, accepted.fragmentsKnown decl member⟩

theorem ofProgram_of_accepted (environment : Environment) (program : Program)
    (accepted : program.Accepted environment) :
    Table.ofProgram environment program = .ok (program.table environment) := by
  rw [ofProgram_eq_unlessFaulty, (faults_eq_nil_iff environment program).mpr accepted]
  rfl

theorem ofProgram_of_not_accepted (environment : Environment) (program : Program)
    (refused : ¬ program.Accepted environment) :
    ∃ error, (program.faults environment).head? = some error ∧
      Table.ofProgram environment program = .error error := by
  rw [ofProgram_eq_unlessFaulty]
  cases faulty : program.faults environment with
  | nil => exact absurd ((faults_eq_nil_iff environment program).mp faulty) refused
  | cons error rest => exact ⟨error, rfl, rfl⟩

theorem ofProgram_eq_ok_iff {environment : Environment} {program : Program} {table : Table} :
    Table.ofProgram environment program = .ok table ↔
      program.Accepted environment ∧ table = program.table environment := by
  by_cases accepted : program.Accepted environment
  · rw [ofProgram_of_accepted environment program accepted, Except.ok.injEq,
      and_iff_right accepted]
    exact eq_comm
  · obtain ⟨error, _first, refused⟩ := ofProgram_of_not_accepted environment program accepted
    rw [refused]
    constructor
    · intro impossible
      cases impossible
    · intro both
      exact absurd both.1 accepted

theorem ofProgram_eq_error_iff {environment : Environment} {program : Program}
    {error : SemanticError} :
    Table.ofProgram environment program = .error error ↔
      (program.faults environment).head? = some error := by
  rw [ofProgram_eq_unlessFaulty]
  cases program.faults environment with
  | nil =>
      constructor <;>
        · intro impossible
          cases impossible
  | cons first rest => rw [unlessFaulty, Except.error.injEq, List.head?_cons, Option.some.injEq]

/-- What comes of a program: a table if it is accepted, with all it declares in order and with the
last signature of every name, and otherwise the first of its faults. -/
theorem ofProgram_exact (environment : Environment) (program : Program) :
    match Table.ofProgram environment program with
    | .ok table =>
        program.Accepted environment ∧
          table.imports = program.imports.map Spanned.value ∧
          table.bindings.values = program.bindings.map (signedBinding program.signatures) ∧
          table.types.values = program.types ∧
          table.environment = environment
    | .error error =>
        ¬ program.Accepted environment ∧ (program.faults environment).head? = some error := by
  by_cases accepted : program.Accepted environment
  · rw [ofProgram_of_accepted environment program accepted]
    exact ⟨accepted, rfl, values_bindingEntries accepted.bindingsDistinct _,
      values_typeEntries accepted.typesDistinct, rfl⟩
  · obtain ⟨error, first, refused⟩ := ofProgram_of_not_accepted environment program accepted
    rw [refused]
    exact ⟨accepted, first⟩

end Bindery.Program
