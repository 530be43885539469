import Bindery.Proofs.Table.Faults

set_option autoImplicit false

/-! What holds of a table after any run of registrations. The order of its names and its entries
have the same names, none of them twice, and every entry bears its name. So the listing along the
order misses nothing: it has the definitions whose registration succeeded, in the order of
success, and what other units see of them is a part of it. -/

namespace Bindery

/-- A binding as it was before any signature. -/
def Binding.unsigned (binding : Binding) : Binding := { binding with signature := none }

namespace Table

/-! ### Tables that are consistent -/

/-- Order and entries of a table agree, and none of its types takes a name that is given. -/
structure Consistent (table : Table) : Prop where
  bindings : table.bindings.Sound
  bindingsNamed : table.bindings.Named Binding.name
  types : table.types.Sound
  typesNamed : table.types.Named fun decl => decl.name.value
  typesNew : ∀ name ∈ table.types.order,
    name ∉ ["int", "f64", "void"] ∧ name ∉ table.environment.names

theorem insertBinding_eq_ok {table next : Table} {decl : BindingDecl}
    (inserted : table.insertBinding decl = .ok next) :
    table.bindings.find? decl.name.value = none ∧
      next = { table with bindings := table.bindings.add decl.name.value (.ofDecl decl) } := by
  unfold insertBinding at inserted
  split at inserted
  · cases inserted
  · exact ⟨‹_›, (Except.ok.inj inserted).symm⟩

theorem insertSignature_eq_ok {table next : Table} {decl : SignatureDecl}
    (inserted : table.insertSignature decl = .ok next) :
    next = { table with
      bindings := table.bindings.modify decl.name.value fun binding =>
        { binding with signature := some (decl.fragments.map Spanned.value) } } := by
  unfold insertSignature at inserted
  split at inserted
  · cases inserted
  · cases checked : decl.fragments.forM table.checkType with
    | error error =>
        rw [checked] at inserted
        cases inserted
    | ok _ =>
        rw [checked] at inserted
        exact (Except.ok.inj inserted).symm

theorem insertType_eq_ok {table next : Table} {decl : TypeDecl}
    (inserted : table.insertType decl = .ok next) :
    table.types.find? decl.name.value = none ∧
      decl.name.value ∉ ["int", "f64", "void"] ∧
      decl.name.value ∉ table.environment.names ∧
      next = { table with types := table.types.add decl.name.value decl } := by
  unfold insertType at inserted
  dsimp only at inserted
  split at inserted
  · cases inserted
  · rename_i undefined
    split at inserted
    · cases inserted
    · rename_i free
      rw [Program.provided_iff, not_or] at free
      exact ⟨undefined, free.1, free.2, (Except.ok.inj inserted).symm⟩

theorem Consistent.empty (environment : Environment) : (Table.empty environment).Consistent where
  bindings := .empty
  bindingsNamed := .empty
  types := .empty
  typesNamed := .empty
  typesNew := List.forall_mem_nil _

theorem Consistent.bind {table : Table} (consistent : table.Consistent) {decl : BindingDecl}
    (unbound : table.bindings.find? decl.name.value = none) :
    Consistent { table with bindings := table.bindings.add decl.name.value (.ofDecl decl) } where
  bindings := consistent.bindings.add unbound _
  bindingsNamed := consistent.bindingsNamed.add unbound rfl
  types := consistent.types
  typesNamed := consistent.typesNamed
  typesNew := consistent.typesNew

theorem Consistent.sign {table : Table} (consistent : table.Consistent) (name : String)
    (signature : List Ty) :
    Consistent { table with
      bindings := table.bindings.modify name fun binding =>
        { binding with signature := some signature } } where
  bindings := consistent.bindings.modify name fun binding =>
    { binding with signature := some signature }
  bindingsNamed := consistent.bindingsNamed.modify name _ fun _binding => rfl
  types := consistent.types
  typesNamed := consistent.typesNamed
  typesNew := consistent.typesNew

theorem Consistent.define {table : Table} (consistent : table.Consistent) {decl : TypeDecl}
    (undefined : table.types.find? decl.name.value = none)
    (reserved : decl.name.value ∉ ["int", "f64", "void"])
    (provided : decl.name.value ∉ table.environment.names) :
    Consistent { table with types := table.types.add decl.name.value decl } where
  bindings := consistent.bindings
  bindingsNamed := consistent.bindingsNamed
  types := consistent.types.add undefined _
  typesNamed := consistent.typesNamed.add undefined rfl
  typesNew name member := by
    rcases List.mem_append.mp member with earlier | last
    · exact consistent.typesNew name earlier
    · rw [List.mem_singleton.mp last]
      exact ⟨reserved, provided⟩

/-- A registration that succeeds keeps a table consistent, and the environment as it is. -/
theorem Consistent.apply {table next : Table} (consistent : table.Consistent) {step : Step}
    (applied : table.apply step = .ok next) :
    next.Consistent ∧ next.environment = table.environment := by
  cases step with
  | bringIn path =>
      obtain rfl := Except.ok.inj applied
      exact ⟨{ consistent with }, rfl⟩
  | bind decl =>
      obtain ⟨unbound, rfl⟩ := insertBinding_eq_ok applied
      exact ⟨consistent.bind unbound, rfl⟩
  | sign decl =>
      obtain rfl := insertSignature_eq_ok applied
      exact ⟨consistent.sign decl.name.value _, rfl⟩
  | define decl =>
      obtain ⟨undefined, reserved, provided, rfl⟩ := insertType_eq_ok applied
      exact ⟨consistent.define undefined reserved provided, rfl⟩

/-! ### What a run adds -/

def Step.bound? : Step → Option BindingDecl
  | .bind decl => some decl
  | .bringIn _ | .sign _ | .define _ => none

def Step.defined? : Step → Option TypeDecl
  | .define decl => some decl
  | .bringIn _ | .bind _ | .sign _ => none

/-- The registrations of a run that succeed, each tried on what those before it have left. -/
def succeeded : Table → List Step → List Step
  | _, [] => []
  | table, step :: rest =>
      (if (table.apply step).isOk then [step] else []) ++ succeeded (table.attempt step) rest

/-- What one registration adds to the listings of a table. -/
theorem Consistent.values_apply {table next : Table} (consistent : table.Consistent) {step : Step}
    (applied : table.apply step = .ok next) :
    next.bindings.values.map Binding.unsigned =
        table.bindings.values.map Binding.unsigned ++ (step.bound?.map Binding.ofDecl).toList ∧
      next.types.values = table.types.values ++ step.defined?.toList := by
  cases step with
  | bringIn path =>
      obtain rfl := Except.ok.inj applied
      exact ⟨(List.append_nil _).symm, (List.append_nil _).symm⟩
  | bind decl =>
      obtain ⟨unbound, rfl⟩ := insertBinding_eq_ok applied
      refine ⟨?_, (List.append_nil _).symm⟩
      rw [consistent.bindings.values_add unbound, List.map_append]
      rfl
  | sign decl =>
      obtain rfl := insertSignature_eq_ok applied
      have same := table.bindings.map_values_modify decl.name.value
        (fun binding => { binding with signature := some (decl.fragments.map Spanned.value) })
        Binding.unsigned fun _binding => rfl
      exact ⟨same.trans (List.append_nil _).symm, (List.append_nil _).symm⟩
  | define decl =>
      obtain ⟨undefined, _reserved, _provided, rfl⟩ := insertType_eq_ok applied
      exact ⟨(List.append_nil _).symm, consistent.types.values_add undefined decl⟩

/-- A step either succeeds or leaves the table alone. -/
theorem attempt_cases (table : Table) (step : Step) :
    (∃ next, table.apply step = .ok next ∧ table.attempt step = next) ∨
      (table.apply step).isOk = false ∧ table.attempt step = table := by
  unfold attempt
  cases table.apply step with
  | ok next => exact Or.inl ⟨next, rfl, rfl⟩
  | error error => exact Or.inr ⟨rfl, rfl⟩

theorem Consistent.run {table : Table} (consistent : table.Consistent) (steps : List Step) :
    (table.run steps).Consistent ∧ (table.run steps).environment = table.environment := by
  induction steps generalizing table with
  | nil => exact ⟨consistent, rfl⟩
  | cons step rest ih =>
      rw [Table.run, List.foldl_cons]
      rcases table.attempt_cases step with ⟨next, applied, stepped⟩ | ⟨_refused, stepped⟩
      · obtain ⟨kept, same⟩ := consistent.apply applied
        rw [stepped, ← same]
        exact ih kept
      · rw [stepped]
        exact ih consistent

/-- The listings grow by the registrations that succeed, in the order in which they do. -/
theorem Consistent.values_run {table : Table} (consistent : table.Consistent)
    (steps : List Step) :
    (table.run steps).bindings.values.map Binding.unsigned =
        table.bindings.values.map Binding.unsigned ++
          ((table.succeeded steps).filterMap Step.bound?).map Binding.ofDecl ∧
      (table.run steps).types.values =
        table.types.values ++ (table.succeeded steps).filterMap Step.defined? := by
  induction steps generalizing table with
  | nil => exact ⟨(List.append_nil _).symm, (List.append_nil _).symm⟩
  | cons step rest ih =>
      rw [Table.run, List.foldl_cons, succeeded]
      change (Table.run _ rest).bindings.values.map _ = _ ∧ (Table.run _ rest).types.values = _
      rcases table.attempt_cases step with ⟨next, applied, stepped⟩ | ⟨refused, stepped⟩
      · obtain ⟨bindings, types⟩ := ih (consistent.apply applied).1
        obtain ⟨bound, defined⟩ := consistent.values_apply applied
        have fine : (table.apply step).isOk = true := by rw [applied]; rfl
        rw [stepped, bindings, types, bound, defined, if_pos fine, List.filterMap_append,
          List.filterMap_append, List.map_append, List.append_assoc, List.append_assoc]
        cases step <;> exact ⟨rfl, rfl⟩
      · rw [stepped, refused, if_neg Bool.false_ne_true, List.nil_append]
        exact ih consistent

theorem binding_eq_ok_iff {table : Table} {name : String} {binding : Binding} :
    table.binding name = .ok binding ↔ table.bindings.find? name = some binding := by
  rw [Table.binding]
  cases table.bindings.find? name with
  | none => simp only [reduceCtorEq]
  | some other => simp only [Except.ok.injEq, Option.some.injEq]

/-! ### What other units see -/

theorem exportedBinding_eq_ok_iff {table : Table} (consistent : table.Consistent) (name : String)
    (binding : Binding) :
    table.exportedBinding name = .ok binding ↔
      binding ∈ table.exports ∧ binding.name = name := by
  have found := consistent.bindings.find?_eq_some_iff_listed consistent.bindingsNamed name binding
  have visible : table.exportedBinding name = .ok binding ↔
      (table.bindings.find? name).filter Binding.exported = some binding := by
    rw [exportedBinding]
    cases (table.bindings.find? name).filter Binding.exported with
    | none => simp only [reduceCtorEq]
    | some other => simp only [Except.ok.injEq, Option.some.injEq]
  rw [visible, Option.filter_eq_some_iff, found, exports, List.mem_filter]
  constructor
  · rintro ⟨⟨member, named⟩, exported⟩
    exact ⟨⟨member, exported⟩, named⟩
  · rintro ⟨⟨member, exported⟩, named⟩
    exact ⟨⟨member, named⟩, exported⟩

theorem names_exports {table : Table} (consistent : table.Consistent) :
    (table.exports.map Binding.name).Nodup := by
  have distinct := consistent.bindings.orderDistinct
  rw [← consistent.bindings.map_values consistent.bindingsNamed] at distinct
  exact distinct.sublist ((List.filter_sublist).map Binding.name)

/-- After any run of registrations, of which any may fail, the order and the entries of a table
agree, and no type takes a name that is given. The bindings and types are listed once each, as
their registrations succeeded; what is exported is listed in the same order, and found by its
name. -/
theorem run_consistent (environment : Environment) (steps : List Step) :
    let start := Table.empty environment
    let table := start.run steps
    table.environment = environment ∧
      table.Consistent ∧ table.bindings.Listed Binding.name ∧
      table.types.Listed (fun decl => decl.name.value) ∧
      table.bindings.values.map Binding.unsigned =
        ((start.succeeded steps).filterMap Step.bound?).map Binding.ofDecl ∧
      table.types.values = (start.succeeded steps).filterMap Step.defined? ∧
      table.exports.Sublist table.bindings.values ∧
      (∀ binding, binding ∈ table.exports ↔
        binding ∈ table.bindings.values ∧ binding.exported = true) ∧
      (table.exports.map Binding.name).Nodup ∧
      ∀ name binding, table.exportedBinding name = .ok binding ↔
        binding ∈ table.exports ∧ binding.name = name := by
  obtain ⟨consistent, environmentEq⟩ := (Consistent.empty environment).run steps
  obtain ⟨bindings, types⟩ := (Consistent.empty environment).values_run steps
  exact ⟨environmentEq, consistent, consistent.bindings.listed consistent.bindingsNamed,
    consistent.types.listed consistent.typesNamed, bindings, types, List.filter_sublist,
    fun _binding => List.mem_filter, names_exports consistent,
    exportedBinding_eq_ok_iff consistent⟩

end Table

end Bindery
