import Bindery.Compilation
import Bindery.Trace.Collection
import Bindery.Trace.Table

set_option autoImplicit false

/-! The records of compiling units: those of reading the tree, those of registering its program and
the outcome. -/

namespace Bindery.Trace

/-- The records of one unit whose file has the number `file`. -/
def ofUnit (environment : Environment) (file : Nat) (unit : SourceUnit) : List Record :=
  let outcome :=
    match Program.ofTree unit.tree with
    | .error errors =>
        [⟨.debug, "declarations rejected",
          [("file_id", count file), ("errors", count errors.length)]⟩]
    | .ok program =>
        ofProgram environment program ++
          match Table.ofProgram environment program with
          | .ok _ => []
          | .error error =>
              [⟨.debug, "binding table rejected",
                [("file_id", count file), ("error", error.message)]⟩]
  let built := (Table.ofTree environment unit.tree).toBool
  ofTree unit.tree ++ outcome ++
    [⟨.debug, "built unit",
      [("unit", unit.name), ("file_id", count file), ("ok", Text.truth built)]⟩]

def ofUnits (configuration : Configuration) (units : List SourceUnit) : List Record :=
  (Compilation.build configuration units).units.flatMap fun unit =>
    ofUnit configuration.environment unit.file unit.source

end Bindery.Trace
