import Bindery.Proofs.Table.References

set_option autoImplicit false

/-! Registrations in place. A table is changed by single writes, and what has been written when a
registration fails stays written. Every check is made before the first write, so a registration that
fails leaves the table as it was, and the others do what the registrations of a table say. -/

namespace Bindery

namespace Registry

variable {α : Type}

/-- Writes a name behind the others. -/
def listName (registry : Registry α) (name : String) : Registry α :=
  { registry with order := registry.order ++ [name] }

/-- Writes the entry of a name in place of any that the name has. -/
def store (registry : Registry α) (name : String) (value : α) : Registry α :=
  { registry with
    entries := registry.entries.filter (fun entry => entry.1 != name) ++ [(name, value)] }

end Registry

namespace Table

/-- An operation on a table in place. An error ends it and undoes nothing. -/
abbrev InPlace := ExceptT SemanticError (StateM Table)

def write (change : Table → Table) : InPlace Unit := modify change

def checkInPlace (type : Spanned Ty) : InPlace Unit := do
  match (← get).checkType type with
  | .ok () => pure ()
  | .error error => throw error

def bindInPlace (decl : BindingDecl) : InPlace Unit := do
  let name := decl.name
  match (← get).bindings.find? name.value with
  | some existing => throw (.bindingExists name.value name.span existing.nameSpan)
  | none =>
      write fun table => { table with bindings := table.bindings.listName name.value }
      write fun table => { table with bindings := table.bindings.store name.value (.ofDecl decl) }

def signInPlace (decl : SignatureDecl) : InPlace Unit := do
  let name := decl.name
  match (← get).bindings.find? name.value with
  | none => throw (.noSuchBinding name.value (some name.span))
  | some _ =>
      decl.fragments.forM checkInPlace
      write fun table => { table with
        bindings := table.bindings.modify name.value fun binding =>
          { binding with signature := some (decl.fragments.map Spanned.value) } }

def defineInPlace (decl : TypeDecl) : InPlace Unit := do
  let name := decl.name
  match (← get).types.find? name.value with
  | some existing => throw (.typeExists name.value name.span (some existing.name.span))
  | none =>
      if (Ty.ofName name.value).reference?.isNone || (← get).environment.contains name.value then
        throw (.typeExists name.value name.span none)
      else
        write fun table => { table with types := table.types.listName name.value }
        write fun table => { table with types := table.types.store name.value decl }

def Step.inPlace : Step → InPlace Unit
  | .bringIn path => write fun table => table.insertImport path
  | .bind decl => bindInPlace decl
  | .sign decl => signInPlace decl
  | .define decl => defineInPlace decl

/-- The answer of a registration in place, and the table that it leaves behind. -/
def perform (table : Table) (step : Step) : Except SemanticError Unit × Table :=
  step.inPlace.run.run table

variable (table : Table)

/-- A check answers as it does otherwise, and writes nothing. -/
theorem run_checkInPlace (type : Spanned Ty) :
    (checkInPlace type).run.run table = (table.checkType type, table) := by
  change (match table.checkType type with
    | .ok () => (pure () : InPlace Unit)
    | .error error => throw error).run.run table = _
  cases table.checkType type <;> rfl

theorem run_forM_checkInPlace (types : List (Spanned Ty)) :
    (types.forM checkInPlace).run.run table = (types.forM table.checkType, table) := by
  induction types with
  | nil => rfl
  | cons type rest ih =>
      change (checkInPlace type >>= fun _ => rest.forM checkInPlace).run.run table =
        (table.checkType type >>= fun _ => rest.forM table.checkType, table)
      rw [ExceptT.run_bind, StateT.run_bind, run_checkInPlace]
      cases table.checkType type with
      | error error => rfl
      | ok _ => exact ih

theorem perform_eq (step : Step) :
    table.perform step = ((table.apply step).map fun _ => (), table.attempt step) := by
  unfold attempt perform
  cases step with
  | bringIn path => rfl
  | bind decl =>
      change (match table.bindings.find? decl.name.value with
        | some existing => _
        | none => _ : InPlace Unit).run.run table = _
      rw [apply, insertBinding]
      cases table.bindings.find? decl.name.value <;> rfl
  | sign decl =>
      change (match table.bindings.find? decl.name.value with
        | none => _
        | some _ => decl.fragments.forM checkInPlace >>= _ : InPlace Unit).run.run table = _
      rw [apply, insertSignature]
      cases table.bindings.find? decl.name.value with
      | none => rfl
      | some binding =>
          dsimp only
          rw [ExceptT.run_bind, StateT.run_bind, run_forM_checkInPlace]
          cases decl.fragments.forM table.checkType <;> rfl
  | define decl =>
      change (match table.types.find? decl.name.value with
        | some existing => _
        | none => _ : InPlace Unit).run.run table = _
      rw [apply, insertType]
      cases table.types.find? decl.name.value with
      | some existing => rfl
      | none =>
          change (if (Ty.ofName decl.name.value).reference?.isNone ||
              table.environment.contains decl.name.value then _ else _ : InPlace Unit).run.run
            table = _
          dsimp only
          split <;> rfl

end Table

end Bindery
