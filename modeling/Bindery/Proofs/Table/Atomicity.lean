import Bindery.Proofs.Table.InPlace

set_option autoImplicit false

/-! When a registration fails, with which error, and what one that succeeds changes. All of it is
said of a single table, by what the table holds, and so of every table that can be reached. -/

namespace Bindery

/-- A traversal ends with the error of the first item that has one. -/
theorem forM_eq_error_iff {ε α : Type} (act : α → Except ε Unit) (items : List α) (error : ε) :
    items.forM act = .error error ↔
      ∃ before item after, items = before ++ item :: after ∧
        (∀ earlier ∈ before, act earlier = .ok ()) ∧ act item = .error error := by
  induction items with
  | nil =>
      constructor
      · intro impossible
        cases impossible
      · rintro ⟨before, item, after, split, _fine, _fails⟩
        cases before <;> cases split
  | cons first rest ih =>
      change (act first >>= fun _ => rest.forM act) = .error error ↔ _
      cases own : act first with
      | error other =>
          constructor
          · intro same
            exact ⟨[], first, rest, rfl, List.forall_mem_nil _, own.trans same⟩
          · rintro ⟨before, item, after, split, fine, fails⟩
            cases before with
            | nil =>
                obtain ⟨rfl, _rest⟩ := List.cons.inj split
                exact own.symm.trans fails
            | cons earlier others =>
                obtain ⟨rfl, _rest⟩ := List.cons.inj split
                cases own.symm.trans (fine first List.mem_cons_self)
      | ok _ =>
          change rest.forM act = .error error ↔ _
          rw [ih]
          constructor
          · rintro ⟨before, item, after, rfl, fine, fails⟩
            exact ⟨first :: before, item, after, rfl, List.forall_mem_cons.mpr ⟨own, fine⟩, fails⟩
          · rintro ⟨before, item, after, split, fine, fails⟩
            cases before with
            | nil =>
                obtain ⟨rfl, _rest⟩ := List.cons.inj split
                cases own.symm.trans fails
            | cons earlier others =>
                obtain ⟨rfl, rfl⟩ := List.cons.inj split
                exact ⟨others, item, after, rfl, (List.forall_mem_cons.mp fine).2, fails⟩

namespace Table

variable {table next : Table} {error : SemanticError}

/-! ### Failures -/

theorem insertBinding_eq_error_iff {decl : BindingDecl} :
    table.insertBinding decl = .error error ↔
      ∃ existing, table.bindings.find? decl.name.value = some existing ∧
        error = .bindingExists decl.name.value decl.name.span existing.nameSpan := by
  unfold insertBinding
  cases table.bindings.find? decl.name.value with
  | none => simp only [reduceCtorEq, false_and, exists_false]
  | some existing => simp only [Except.error.injEq, Option.some.injEq, exists_eq_left', eq_comm]

theorem checkType_eq_error_iff {type : Spanned Ty} :
    table.checkType type = .error error ↔
      ∃ name, type.value = .named name ∧ table.knowsType name = false ∧
        error = .unknownType name type.span := by
  unfold checkType
  cases type.value with
  | named name =>
      simp only [Ty.reference?, Ty.named.injEq, exists_eq_left']
      cases table.knowsType name <;> simp [@eq_comm _ error]
  | void | «variable» | int | float => simp [Ty.reference?]

/-- The binding is looked for before the types are checked, and these are checked in order. -/
theorem insertSignature_eq_error_iff {decl : SignatureDecl} :
    table.insertSignature decl = .error error ↔
      (table.bindings.find? decl.name.value = none ∧
        error = .noSuchBinding decl.name.value (some decl.name.span)) ∨
      (∃ existing, table.bindings.find? decl.name.value = some existing) ∧
        ∃ before type after name, decl.fragments = before ++ type :: after ∧
          (∀ earlier ∈ before, table.Resolves earlier.value) ∧ type.value = .named name ∧
            table.knowsType name = false ∧ error = .unknownType name type.span := by
  have checks : decl.fragments.forM table.checkType = .error error ↔
      ∃ before type after name, decl.fragments = before ++ type :: after ∧
        (∀ earlier ∈ before, table.Resolves earlier.value) ∧ type.value = .named name ∧
          table.knowsType name = false ∧ error = .unknownType name type.span := by
    simp only [forM_eq_error_iff, checkType_eq_ok_iff, checkType_eq_error_iff,
      exists_and_left]
  rw [← checks]
  unfold insertSignature
  cases table.bindings.find? decl.name.value with
  | none => simp [@eq_comm _ error]
  | some binding =>
      cases decl.fragments.forM table.checkType <;> simp [bind, Except.bind, pure, Except.pure]

theorem insertType_eq_error_iff {decl : TypeDecl} :
    table.insertType decl = .error error ↔
      (∃ existing, table.types.find? decl.name.value = some existing ∧
        error = .typeExists decl.name.value decl.name.span (some existing.name.span)) ∨
      table.types.find? decl.name.value = none ∧
        (decl.name.value ∈ ["int", "f64", "void"] ∨
          decl.name.value ∈ table.environment.names) ∧
        error = .typeExists decl.name.value decl.name.span none := by
  rw [← Program.provided_iff]
  unfold insertType
  dsimp only
  cases table.types.find? decl.name.value with
  | some existing => simp [@eq_comm _ error]
  | none =>
      dsimp only
      split
      · rename_i clash
        simp [clash, @eq_comm _ error]
      · rename_i free
        simp [free]

/-! ### Changes -/

/-- All names have the entries that they had, but one name has that value. -/
def OnlyEntry {α : Type} (registry next : Registry α) (name : String) (value : α) : Prop :=
  ∀ other, next.find? other = if other = name then some value else registry.find? other

/-- What a registration changes when it succeeds. -/
def Changes (table next : Table) : Step → Prop
  | .bringIn path => next = { table with imports := table.imports ++ [path] }
  | .bind decl =>
      next = { table with bindings := next.bindings } ∧
        next.bindings.order = table.bindings.order ++ [decl.name.value] ∧
          OnlyEntry table.bindings next.bindings decl.name.value (.ofDecl decl)
  | .sign decl =>
      next = { table with bindings := next.bindings } ∧
        next.bindings.order = table.bindings.order ∧
          ∃ binding, table.bindings.find? decl.name.value = some binding ∧
            OnlyEntry table.bindings next.bindings decl.name.value
              { binding with signature := some (decl.fragments.map Spanned.value) }
  | .define decl =>
      next = { table with types := next.types } ∧
        next.types.order = table.types.order ++ [decl.name.value] ∧
          OnlyEntry table.types next.types decl.name.value decl

theorem changes_of_apply {step : Step} (applied : table.apply step = .ok next) :
    table.Changes next step := by
  cases step with
  | bringIn path => exact (Except.ok.inj applied).symm
  | bind decl =>
      obtain ⟨_unbound, rfl⟩ := insertBinding_eq_ok applied
      exact ⟨rfl, rfl, fun other => Registry.find?_add _ _ other _⟩
  | sign decl =>
      have succeeds := (insertSignature_succeeds_iff table decl).mp ⟨next, applied⟩
      obtain ⟨binding, bound⟩ := Option.isSome_iff_exists.mp succeeds.1
      obtain rfl := insertSignature_eq_ok applied
      refine ⟨rfl, rfl, binding, bound, fun other => ?_⟩
      rw [Registry.find?_modify]
      by_cases own : other = decl.name.value
      · subst own
        simp only [bound, Option.map_some, if_true]
      · simp only [if_neg own, Option.map_id']
  | define decl =>
      obtain ⟨_undefined, _reserved, _provided, rfl⟩ := insertType_eq_ok applied
      exact ⟨rfl, rfl, fun other => Registry.find?_add _ _ other _⟩

/-- A registration fails exactly for these causes, of which the first that applies is the error. In
place, where nothing undoes a write, one that fails has left every part of the table as it was, and
one that succeeds has changed the entry of its own name and no other; a new name stands behind the
others, and a signature changes nothing but the signature. -/
theorem registration_atomic (table : Table) :
    (∀ decl error, table.insertBinding decl = .error error ↔
      ∃ existing, table.bindings.find? decl.name.value = some existing ∧
        error = .bindingExists decl.name.value decl.name.span existing.nameSpan) ∧
    (∀ decl error, table.insertSignature decl = .error error ↔
      (table.bindings.find? decl.name.value = none ∧
        error = .noSuchBinding decl.name.value (some decl.name.span)) ∨
      (∃ existing, table.bindings.find? decl.name.value = some existing) ∧
        ∃ before type after name, decl.fragments = before ++ type :: after ∧
          (∀ earlier ∈ before, table.Resolves earlier.value) ∧ type.value = .named name ∧
            table.knowsType name = false ∧ error = .unknownType name type.span) ∧
    (∀ decl error, table.insertType decl = .error error ↔
      (∃ existing, table.types.find? decl.name.value = some existing ∧
        error = .typeExists decl.name.value decl.name.span (some existing.name.span)) ∨
      table.types.find? decl.name.value = none ∧
        (decl.name.value ∈ ["int", "f64", "void"] ∨
          decl.name.value ∈ table.environment.names) ∧
        error = .typeExists decl.name.value decl.name.span none) ∧
    ∀ step,
      (∀ error, table.apply step = .error error → table.perform step = (.error error, table)) ∧
      ∀ next, table.apply step = .ok next →
        table.perform step = (.ok (), next) ∧ table.Changes next step := by
  refine ⟨fun decl error => insertBinding_eq_error_iff,
    fun decl error => insertSignature_eq_error_iff,
    fun decl error => insertType_eq_error_iff, fun step => ⟨?_, ?_⟩⟩
  · intro error refused
    rw [perform_eq, attempt_of_error refused, refused]
    rfl
  · intro next applied
    refine ⟨?_, changes_of_apply applied⟩
    rw [perform_eq, attempt, applied]
    rfl

theorem registration_atomic_sample :
    let table := (empty .prelude).run sampleSigned
    let again : BindingDecl := ⟨⟨"x", ⟨16, 17⟩⟩, [], .integer 2 ⟨20, 21⟩, false⟩
    let unknown : SignatureDecl :=
      ⟨⟨"x", ⟨16, 17⟩⟩, [⟨.int, ⟨21, 24⟩⟩, ⟨.named "Q", ⟨28, 29⟩⟩]⟩
    let point : TypeDecl := ⟨⟨"Point", ⟨21, 26⟩⟩, [], false⟩
    table.perform (.bind again) = (.error (.bindingExists "x" ⟨16, 17⟩ ⟨0, 1⟩), table) ∧
      table.perform (.sign unknown) = (.error (.unknownType "Q" ⟨28, 29⟩), table) ∧
        ∃ next, table.perform (.define point) = (.ok (), next) ∧
          table.Changes next (.define point) := by
  intro table again unknown point
  obtain ⟨binds, signs, _defines, atomic⟩ := registration_atomic table
  have refused : table.insertBinding again = .error (.bindingExists "x" ⟨16, 17⟩ ⟨0, 1⟩) :=
    (binds again _).mpr ⟨_, rfl, rfl⟩
  have unresolved : table.insertSignature unknown = .error (.unknownType "Q" ⟨28, 29⟩) :=
    (signs unknown _).mpr (.inr ⟨⟨_, rfl⟩, [⟨.int, ⟨21, 24⟩⟩], _, [], "Q", rfl,
      List.forall_mem_singleton.mpr fun _ named => (by cases named), rfl, rfl, rfl⟩)
  exact ⟨(atomic (.bind again)).1 _ refused, (atomic (.sign unknown)).1 _ unresolved, _,
    (atomic (.define point)).2 _ rfl⟩

end Table

end Bindery
