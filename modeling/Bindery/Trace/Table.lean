import Bindery.Table
import Bindery.Trace

set_option autoImplicit false

/-! The records of registrations. A registration that is refused leaves no record. -/

namespace Bindery.Trace

/-- Whether a binding of that name has a signature already. -/
def isSigned (table : Table) (name : String) : Bool :=
  ((table.bindings.find? name).bind Binding.signature).isSome

/-- The record of a registration that the table accepts. -/
def ofAccepted (table : Table) : Table.Step → Record
  | .bringIn path => ⟨.debug, "recorded import", [("import", path)]⟩
  | .bind decl =>
      ⟨.debug, "inserted binding",
        [("binding", decl.name.value), ("params", count decl.parameters.length),
          ("export", Text.truth decl.exported)]⟩
  | .sign decl =>
      ⟨.debug,
        if isSigned table decl.name.value then "replaced binding signature"
        else "attached binding signature",
        [("binding", decl.name.value)]⟩
  | .define decl =>
      ⟨.debug, "inserted type define",
        [("type_define", decl.name.value), ("fields", count decl.fields.length)]⟩

def ofStep (table : Table) (step : Table.Step) : List Record :=
  match table.apply step with
  | .ok _ => [ofAccepted table step]
  | .error _ => []

/-- The records of a run that ends with its first failure, and the table if there is none. -/
def ofSteps (table : Table) : List Table.Step → List Record × Option Table
  | [] => ([], some table)
  | step :: rest =>
      match table.apply step with
      | .error _ => ([], none)
      | .ok next =>
          let (records, final) := ofSteps next rest
          (ofAccepted table step :: records, final)

/-- The registrations of a program that follow the check of the fields. -/
def laterSteps (program : Program) : List Table.Step :=
  program.imports.map (fun path => .bringIn path.value) ++ program.bindings.map .bind ++
    program.signatures.map .sign

/-- What is recorded when a table is complete. -/
def ofComplete (table : Table) : Record :=
  ⟨.debug, "built binding table",
    [("bindings", count table.bindings.size), ("imports", count table.imports.length),
      ("type_defines", count table.types.size)]⟩

def ofProgram (environment : Environment) (program : Program) : List Record :=
  match ofSteps (.empty environment) (program.types.map .define) with
  | (records, none) => records
  | (records, some typed) =>
      match typed.checkFields with
      | .error _ => records
      | .ok _ =>
          match ofSteps typed (laterSteps program) with
          | (later, none) => records ++ later
          | (later, some table) => records ++ later ++ [ofComplete table]

end Bindery.Trace
