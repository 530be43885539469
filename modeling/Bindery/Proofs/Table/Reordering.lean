import Bindery.Proofs.Table.Acceptance
import Bindery.Proofs.Unplaced

set_option autoImplicit false

/-! The order of declarations. A program whose declarations of each kind stand in another order is
accepted just as well, as long as the signatures of every name keep theirs, and its table gives the
same answers. Leaving out places changes neither. -/

namespace Bindery

/-! ### Tables without places -/

def Registry.map {α : Type} (change : α → α) (registry : Registry α) : Registry α where
  order := registry.order
  entries := registry.entries.map fun entry => (entry.1, change entry.2)

theorem Registry.find?_map {α : Type} (change : α → α) (registry : Registry α) (name : String) :
    (registry.map change).find? name = (registry.find? name).map change := by
  unfold map find?
  dsimp only
  induction registry.entries with
  | nil => rfl
  | cons entry rest ih =>
      rw [List.map_cons, List.lookup_cons, List.lookup_cons, ih]
      cases name == entry.1 <;> rfl

theorem Registry.values_map {α : Type} (change : α → α) (registry : Registry α) :
    (registry.map change).values = registry.values.map change := by
  rw [values, values, List.map_filterMap]
  apply List.filterMap_congr
  intro name _member
  exact registry.find?_map change name

namespace Table

def unplaced (table : Table) : Table :=
  { table with
    bindings := table.bindings.map Binding.unplaced
    types := table.types.map TypeDecl.unplaced }

theorem binding_unplaced (table : Table) (name : String) :
    table.unplaced.binding name = unplacedAnswer Binding.unplaced (table.binding name) := by
  unfold binding unplaced
  simp only [Registry.find?_map]
  cases table.bindings.find? name <;> rfl

theorem exportedBinding_unplaced (table : Table) (name : String) :
    table.unplaced.exportedBinding name =
      unplacedAnswer Binding.unplaced (table.exportedBinding name) := by
  unfold exportedBinding unplaced
  simp only [Registry.find?_map]
  cases table.bindings.find? name with
  | none => rfl
  | some binding =>
      rw [Option.map_some]
      cases exported : binding.exported with
      | false => simp [Option.filter, Binding.unplaced, exported, unplacedAnswer,
          SemanticError.unplaced]
      | true => simp [Option.filter, Binding.unplaced, exported, unplacedAnswer]

theorem typeDecl_unplaced (table : Table) (name : String) :
    table.unplaced.typeDecl name = unplacedAnswer TypeDecl.unplaced (table.typeDecl name) := by
  unfold typeDecl unplaced
  simp only [Registry.find?_map]
  cases table.types.find? name <;> rfl

theorem knowsType_unplaced (table : Table) (name : String) :
    table.unplaced.knowsType name = table.knowsType name := by
  unfold knowsType unplaced Registry.contains
  simp only [Registry.find?_map, Option.isSome_map]

/-- Two tables that cannot be told apart by asking for names, except for places. -/
structure SameAnswers (table other : Table) : Prop where
  binding : ∀ name, unplacedAnswer Binding.unplaced (table.binding name) =
    unplacedAnswer Binding.unplaced (other.binding name)
  exportedBinding : ∀ name, unplacedAnswer Binding.unplaced (table.exportedBinding name) =
    unplacedAnswer Binding.unplaced (other.exportedBinding name)
  typeDecl : ∀ name, unplacedAnswer TypeDecl.unplaced (table.typeDecl name) =
    unplacedAnswer TypeDecl.unplaced (other.typeDecl name)
  knowsType : ∀ name, table.knowsType name = other.knowsType name

theorem sameAnswers_of_find? (table other : Table)
    (bindings : ∀ name, table.unplaced.bindings.find? name = other.unplaced.bindings.find? name)
    (types : ∀ name, table.unplaced.types.find? name = other.unplaced.types.find? name)
    (environments : table.environment = other.environment) : table.SameAnswers other where
  binding name := by
    rw [← binding_unplaced, ← binding_unplaced, Table.binding, Table.binding, bindings]
  exportedBinding name := by
    rw [← exportedBinding_unplaced, ← exportedBinding_unplaced, Table.exportedBinding,
      Table.exportedBinding, bindings]
  typeDecl name := by
    rw [← typeDecl_unplaced, ← typeDecl_unplaced, Table.typeDecl, Table.typeDecl, types]
  knowsType name := by
    rw [← knowsType_unplaced table, ← knowsType_unplaced other, Table.knowsType,
      Table.knowsType, Registry.contains, Registry.contains, types]
    change (table.environment.contains name || _) = (other.environment.contains name || _)
    rw [environments]

end Table

namespace Program

theorem lastSignature?_unplaced (signatures : List SignatureDecl) (name : String) :
    lastSignature? (signatures.map SignatureDecl.unplaced) name =
      lastSignature? signatures name := by
  unfold lastSignature?
  rw [List.filter_map, List.getLast?_map, Option.map_map]
  have types : (fun decl : SignatureDecl => decl.fragments.map Spanned.value) ∘
      SignatureDecl.unplaced = fun decl => decl.fragments.map Spanned.value := by
    funext decl
    simp [SignatureDecl.unplaced, Spanned.unplaced, Function.comp_def]
  rw [types]
  rfl

theorem signedBinding_unplaced (signatures : List SignatureDecl) (decl : BindingDecl) :
    signedBinding (signatures.map SignatureDecl.unplaced) decl.unplaced =
      (signedBinding signatures decl).unplaced := by
  unfold signedBinding
  rw [lastSignature?_unplaced]
  rfl

/-- The table of a program without places is its table without places. -/
theorem table_unplaced (environment : Environment) (program : Program) :
    program.unplaced.table environment = (program.table environment).unplaced := by
  unfold table Table.unplaced bindingEntries typeEntries Registry.map Registry.ofItems
    Program.unplaced
  simp only [List.map_map, Function.comp_def, signedBinding_unplaced]
  rfl

theorem known_unplaced (environment : Environment) (program : Program) (name : String) :
    program.unplaced.Known environment name ↔ program.Known environment name := by
  constructor
  · rintro (provided | ⟨decl, member, same⟩)
    · exact Or.inl provided
    · obtain ⟨original, present, rfl⟩ := List.mem_map.mp member
      exact Or.inr ⟨original, present, same⟩
  · rintro (provided | ⟨decl, member, same⟩)
    · exact Or.inl provided
    · exact Or.inr ⟨decl.unplaced, List.mem_map_of_mem member, same⟩

theorem typeNames_unplaced (program : Program) :
    (program.unplaced.types.map fun decl => decl.name.value) =
      program.types.map fun decl => decl.name.value := by
  unfold Program.unplaced
  rw [List.map_map]
  rfl

theorem bindingNames_unplaced (program : Program) :
    (program.unplaced.bindings.map fun decl => decl.name.value) =
      program.bindings.map fun decl => decl.name.value := by
  unfold Program.unplaced
  rw [List.map_map]
  rfl

theorem accepted_of_unplaced (environment : Environment) (program : Program)
    (accepted : program.unplaced.Accepted environment) : program.Accepted environment where
  typesDistinct := typeNames_unplaced program ▸ accepted.typesDistinct
  typesNew decl member := accepted.typesNew decl.unplaced (List.mem_map_of_mem member)
  fieldsKnown decl member field inside name named :=
    (known_unplaced environment program name).mp
      (accepted.fieldsKnown decl.unplaced (List.mem_map_of_mem member) field.unplaced
        (List.mem_map_of_mem inside) name named)
  bindingsDistinct := bindingNames_unplaced program ▸ accepted.bindingsDistinct
  signaturesBound decl member := by
    obtain ⟨bound, present, same⟩ :=
      accepted.signaturesBound decl.unplaced (List.mem_map_of_mem member)
    obtain ⟨original, within, rfl⟩ := List.mem_map.mp present
    exact ⟨original, within, same⟩
  fragmentsKnown decl member fragment inside name named :=
    (known_unplaced environment program name).mp
      (accepted.fragmentsKnown decl.unplaced (List.mem_map_of_mem member) fragment.unplaced
        (List.mem_map_of_mem inside) name named)

theorem unplaced_of_accepted (environment : Environment) (program : Program)
    (accepted : program.Accepted environment) : program.unplaced.Accepted environment where
  typesDistinct := (typeNames_unplaced program).symm ▸ accepted.typesDistinct
  typesNew decl member := by
    obtain ⟨original, present, rfl⟩ := List.mem_map.mp member
    exact accepted.typesNew original present
  fieldsKnown decl member field inside name named := by
    obtain ⟨original, present, rfl⟩ := List.mem_map.mp member
    obtain ⟨originalField, within, rfl⟩ := List.mem_map.mp inside
    exact (known_unplaced environment program name).mpr
      (accepted.fieldsKnown original present originalField within name named)
  bindingsDistinct := (bindingNames_unplaced program).symm ▸ accepted.bindingsDistinct
  signaturesBound decl member := by
    obtain ⟨original, present, rfl⟩ := List.mem_map.mp member
    obtain ⟨bound, bindingPresent, same⟩ := accepted.signaturesBound original present
    exact ⟨bound.unplaced, List.mem_map_of_mem bindingPresent, same⟩
  fragmentsKnown decl member fragment inside name named := by
    obtain ⟨original, present, rfl⟩ := List.mem_map.mp member
    obtain ⟨originalFragment, within, rfl⟩ := List.mem_map.mp inside
    exact (known_unplaced environment program name).mpr
      (accepted.fragmentsKnown original present originalFragment within name named)

theorem accepted_unplaced (environment : Environment) (program : Program) :
    program.unplaced.Accepted environment ↔ program.Accepted environment :=
  ⟨accepted_of_unplaced environment program, unplaced_of_accepted environment program⟩

/-! ### Programs in another order -/

/-- Two programs that declare the same in orders of their own. -/
structure Reordered (program other : Program) : Prop where
  imports : program.imports.Perm other.imports
  bindings : program.bindings.Perm other.bindings
  signatures : program.signatures.Perm other.signatures
  types : program.types.Perm other.types
  /-- The signatures of one name keep their order. -/
  signaturesOf : ∀ name, (program.signatures.filter fun decl => decl.name.value = name) =
    other.signatures.filter fun decl => decl.name.value = name

variable {environment : Environment} {program other : Program}

theorem Reordered.known (reordered : program.Reordered other) {name : String}
    (known : program.Known environment name) : other.Known environment name := by
  rcases known with provided | ⟨decl, member, same⟩
  · exact Or.inl provided
  · exact Or.inr ⟨decl, reordered.types.mem_iff.mp member, same⟩

theorem Reordered.accepted (reordered : program.Reordered other)
    (accepted : program.Accepted environment) : other.Accepted environment where
  typesDistinct := (reordered.types.map _).nodup_iff.mp accepted.typesDistinct
  typesNew decl member := accepted.typesNew decl (reordered.types.mem_iff.mpr member)
  fieldsKnown decl member field inside name named :=
    reordered.known
      (accepted.fieldsKnown decl (reordered.types.mem_iff.mpr member) field inside name named)
  bindingsDistinct := (reordered.bindings.map _).nodup_iff.mp accepted.bindingsDistinct
  signaturesBound decl member := by
    obtain ⟨bound, present, same⟩ :=
      accepted.signaturesBound decl (reordered.signatures.mem_iff.mpr member)
    exact ⟨bound, reordered.bindings.mem_iff.mp present, same⟩
  fragmentsKnown decl member fragment inside name named :=
    reordered.known
      (accepted.fragmentsKnown decl (reordered.signatures.mem_iff.mpr member) fragment inside
        name named)

/-- Where names are distinct, the entry of a name does not depend on the order. -/
theorem find?_of_perm {α : Type} (key : α → String) (name : String) {items others : List α}
    (perm : items.Perm others) (distinct : (items.map key).Nodup) :
    (items.find? fun item => key item = name) = others.find? fun item => key item = name := by
  induction perm with
  | nil => rfl
  | cons item perm ih =>
      rw [List.find?_cons, List.find?_cons, ih (List.nodup_cons.mp distinct).2]
  | swap first second rest =>
      rw [List.map_cons, List.map_cons, List.nodup_cons] at distinct
      -- At most one of the two has the name, so it is found in either order.
      have different : key second ≠ key first :=
        fun same => distinct.1 (List.mem_cons.mpr (Or.inl same))
      by_cases atFirst : key first = name
      · have notSecond : key second ≠ name :=
          fun atSecond => different (atSecond.trans atFirst.symm)
        simp [atFirst, notSecond]
      · simp [List.find?_cons, atFirst]
  | trans firstPerm secondPerm ihFirst ihSecond =>
      rw [ihFirst distinct, ihSecond ((firstPerm.map key).nodup_iff.mp distinct)]

theorem Reordered.signedBinding_eq (reordered : program.Reordered other) :
    signedBinding program.signatures = signedBinding other.signatures := by
  funext decl
  unfold signedBinding lastSignature?
  rw [reordered.signaturesOf]

theorem Reordered.find?_bindings (reordered : program.Reordered other)
    (accepted : program.Accepted environment) (name : String) :
    (program.table environment).bindings.find? name =
      (other.table environment).bindings.find? name := by
  change (bindingEntries _ _).find? name = (bindingEntries _ _).find? name
  rw [find?_bindingEntries, find?_bindingEntries, reordered.signedBinding_eq,
    find?_of_perm (fun decl : BindingDecl => decl.name.value) name reordered.bindings
      accepted.bindingsDistinct]

theorem Reordered.find?_types (reordered : program.Reordered other)
    (accepted : program.Accepted environment) (name : String) :
    (program.table environment).types.find? name =
      (other.table environment).types.find? name := by
  change (typeEntries _).find? name = (typeEntries _).find? name
  rw [find?_typeEntries, find?_typeEntries,
    find?_of_perm (fun decl : TypeDecl => decl.name.value) name reordered.types
      accepted.typesDistinct]

/-- Two programs that say the same without places, in another order, have tables with the same
answers. -/
theorem Reordered.sameAnswers (reordered : program.unplaced.Reordered other.unplaced)
    (accepted : program.Accepted environment) :
    (program.table environment).SameAnswers (other.table environment) := by
  have without := (accepted_unplaced environment program).mpr accepted
  apply Table.sameAnswers_of_find?
  · intro name
    rw [← table_unplaced, ← table_unplaced]
    exact reordered.find?_bindings without name
  · intro name
    rw [← table_unplaced, ← table_unplaced]
    exact reordered.find?_types without name
  · rfl

theorem values_unplaced_bindings (accepted : program.Accepted environment) :
    (program.table environment).bindings.values.map Binding.unplaced =
      program.unplaced.bindings.map (signedBinding program.unplaced.signatures) := by
  have without := (accepted_unplaced environment program).mpr accepted
  rw [← Registry.values_map, ← values_bindingEntries without.bindingsDistinct]
  exact congrArg (fun table : Table => table.bindings.values)
    (table_unplaced environment program).symm

theorem values_unplaced_types (accepted : program.Accepted environment) :
    (program.table environment).types.values.map TypeDecl.unplaced = program.unplaced.types := by
  change (typeEntries program.types).values.map TypeDecl.unplaced = _
  rw [values_typeEntries accepted.typesDistinct]
  rfl

theorem imports_unplaced (environment : Environment) (program : Program) :
    (program.table environment).imports = program.unplaced.imports.map Spanned.value := by
  unfold table Program.unplaced
  rw [List.map_map]
  rfl

end Program

end Bindery
