import Bindery.Proofs.Compilation
import Mathlib.Algebra.GroupWithZero.Nat

set_option autoImplicit false

/-! Units do not influence one another. What a unit gets among others is what it gets alone, except
for the number of its file, which is all that tells its reports from those of a compilation of its
own. -/

namespace Bindery

/-! ### Reports about another file -/

def Label.inFile (file : Nat) (label : Label) : Label := { label with file := file }

/-- The report with every label moved to a file. -/
def Diagnostic.inFile (file : Nat) (diagnostic : Diagnostic) : Diagnostic :=
  { diagnostic with labels := diagnostic.labels.map (Label.inFile file) }

theorem SemanticError.inFile_diagnostic (error : SemanticError) (file other : Nat) :
    (error.diagnostic other).inFile file = error.diagnostic file := by
  unfold Diagnostic.inFile diagnostic
  cases error.span? <;> cases error.firstSpan? <;> rfl

theorem SemanticError.isError_diagnostic (error : SemanticError) (file : Nat) :
    (error.diagnostic file).isError = true :=
  rfl

/-! ### What a unit logs -/

namespace SourceUnit

variable (environment : Environment) (file : Nat) (unit : SourceUnit)

theorem diagnostics_entries :
    (unit.entries environment file).map LogEntry.diagnostic =
      (Table.errorsOf environment unit.tree).map fun error => error.diagnostic file :=
  List.map_map

theorem filter_entries :
    ((unit.entries environment file).filter fun entry => entry.diagnostic.isError) =
      unit.entries environment file := by
  rw [List.filter_eq_self]
  intro entry member
  obtain ⟨error, _found, rfl⟩ := List.mem_map.mp member
  exact error.isError_diagnostic file

/-- Every entry of a failing unit is an error, so a unit with a table is one that logs none. -/
theorem any_entries :
    ((unit.entries environment file).any fun entry => entry.diagnostic.isError) =
      (Table.ofTree environment unit.tree).toOption.isNone := by
  rw [← Option.not_isSome, Table.isSome_ofTree]
  unfold entries
  cases Table.errorsOf environment unit.tree with
  | nil => rfl
  | cons error rest => rfl

end SourceUnit

namespace Compilation

variable (configuration : Configuration)

/-- The compilation of a unit without any other. -/
def alone (unit : SourceUnit) : Compilation := build configuration [unit]

theorem units_alone (unit : SourceUnit) :
    (alone configuration unit).units =
      [⟨unit, 0, (Table.ofTree configuration.environment unit.tree).toOption⟩] := by
  rw [alone, units_build, List.map_singleton, List.map_singleton, SourceUnit.compiled,
    firstPlace_singleton]

theorem entries_alone (unit : SourceUnit) :
    (alone configuration unit).log.entries = unit.entries configuration.environment 0 := by
  rw [alone, entries_build, List.flatMap_singleton, List.map_singleton, firstPlace_singleton]

theorem table?_alone (unit : SourceUnit) :
    (alone configuration unit).table? unit.name =
      (Table.ofTree configuration.environment unit.tree).toOption := by
  rw [table?, unit?, units_alone, List.find?_singleton, if_pos (decide_eq_true rfl)]
  rfl

theorem diagnostics_alone (unit : SourceUnit) :
    (alone configuration unit).log.diagnostics =
      (Table.errorsOf configuration.environment unit.tree).map fun error =>
        error.diagnostic 0 := by
  rw [DiagnosticLog.diagnostics, entries_alone, SourceUnit.diagnostics_entries]

/-! ### Units among others -/

/-- The number of a unit's file among the files of all units. -/
def fileOf (units : List SourceUnit) (unit : SourceUnit) : Nat :=
  firstPlace (units.map SourceUnit.name) unit.name

variable (units : List SourceUnit)

theorem sources_build : (build configuration units).units.map CompiledUnit.source = units := by
  rw [units_build, List.map_map]
  exact List.map_id _

theorem files_build :
    (build configuration units).units.map CompiledUnit.file = units.map (fileOf units) := by
  rw [units_build, List.map_map]
  rfl

theorem diagnostics_build :
    (build configuration units).log.diagnostics =
      units.flatMap fun unit =>
        (alone configuration unit).log.diagnostics.map (Diagnostic.inFile (fileOf units unit)) := by
  have moved : ∀ unit : SourceUnit,
      (unit.entries configuration.environment (fileOf units unit)).map LogEntry.diagnostic =
        (alone configuration unit).log.diagnostics.map
          (Diagnostic.inFile (fileOf units unit)) := by
    intro unit
    rw [diagnostics_alone, SourceUnit.diagnostics_entries, List.map_map]
    exact List.map_congr_left fun error _found => (error.inFile_diagnostic _ 0).symm
  rw [DiagnosticLog.diagnostics, entries_build, List.map_flatMap]
  exact congrArg units.flatMap (funext moved)

/-- A unit has a table exactly if it contributes no report. -/
theorem built_build :
    (build configuration units).units.map (fun unit => unit.table.isSome) =
      units.map fun unit => (alone configuration unit).log.diagnostics.isEmpty := by
  rw [units_build, List.map_map]
  apply List.map_congr_left
  intro unit _member
  rw [diagnostics_alone, List.isEmpty_map]
  exact Table.isSome_ofTree _ _

theorem hasErrors_build :
    (build configuration units).hasErrors =
      (build configuration units).units.any fun unit => unit.table.isNone := by
  rw [hasErrors, DiagnosticLog.hasErrors, entries_build, units_build, List.any_flatMap,
    List.any_map]
  exact congrArg units.any (funext fun unit => unit.any_entries _ _)

theorem errorCount_build :
    (build configuration units).log.errorCount =
      (units.map fun unit => (alone configuration unit).log.errorCount).sum := by
  have counted : ∀ (unit : SourceUnit) (file : Nat),
      (unit.entries configuration.environment file).length =
        (alone configuration unit).log.errorCount := by
    intro unit file
    rw [DiagnosticLog.errorCount, entries_alone, SourceUnit.filter_entries, SourceUnit.entries,
      SourceUnit.entries, List.length_map, List.length_map]
  rw [DiagnosticLog.errorCount, entries_build, List.filter_flatMap, List.length_flatMap]
  simp only [SourceUnit.filter_entries, counted]

/-- Every unit gets the table and the reports of a compilation of its own, the latter moved to the
file of its name, whatever the other units are and however often its name comes up. -/
theorem build_eq_alone (configuration : Configuration) (units : List SourceUnit) :
    let compilation := build configuration units
    compilation.units.map CompiledUnit.source = units ∧
      compilation.units.map CompiledUnit.table =
        units.map (fun unit => (alone configuration unit).table? unit.name) ∧
      compilation.units.map CompiledUnit.file =
        units.map (fun unit => firstPlace (units.map SourceUnit.name) unit.name) ∧
      compilation.log.diagnostics =
        units.flatMap (fun unit =>
          (alone configuration unit).log.diagnostics.map
            (Diagnostic.inFile (firstPlace (units.map SourceUnit.name) unit.name))) ∧
      compilation.units.map (fun unit => unit.table.isSome) =
        units.map (fun unit => (alone configuration unit).log.diagnostics.isEmpty) ∧
      compilation.hasErrors = compilation.units.any (fun unit => unit.table.isNone) ∧
      compilation.log.errorCount =
        (units.map fun unit => (alone configuration unit).log.errorCount).sum := by
  have tables : (build configuration units).units.map CompiledUnit.table =
      units.map fun unit => (alone configuration unit).table? unit.name := by
    simp only [table?_alone]
    exact tables_build configuration units
  exact ⟨sources_build configuration units, tables, files_build configuration units,
    diagnostics_build configuration units, built_build configuration units,
    hasErrors_build configuration units, errorCount_build configuration units⟩

end Compilation

end Bindery
