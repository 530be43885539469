import Bindery.Compilation
import Bindery.Proofs.Diagnostic.FileNumbers
import Bindery.Proofs.Table.Acceptance

set_option autoImplicit false

/-! What a compilation is. The units share one log and one numbering of files, and that is all they
share: a unit's table and its errors come from its own tree, and its file number from the names that
were added before it. -/

namespace Bindery

/-- The errors of a tree, which has none exactly if it gets a table. -/
def Table.errorsOf (environment : Environment) (tree : Syntax.Tree) : List SemanticError :=
  match Table.ofTree environment tree with
  | .ok _ => []
  | .error errors => errors

theorem Program.errors_ne_nil {tree : Syntax.Tree} {errors : List SemanticError}
    (failed : ofTree tree = .error errors) : errors ≠ [] := by
  unfold ofTree Collection.result at failed
  split at failed
  · cases failed
  · rename_i some_error
    cases failed
    intro none_found
    exact some_error (List.isEmpty_iff.mpr none_found)

theorem Table.isSome_ofTree (environment : Environment) (tree : Syntax.Tree) :
    (ofTree environment tree).toOption.isSome = (errorsOf environment tree).isEmpty := by
  unfold errorsOf ofTree
  cases declared : Program.ofTree tree with
  | error errors =>
      have found := Program.errors_ne_nil declared
      exact (List.isEmpty_eq_false_iff.mpr found).symm
  | ok program =>
      cases registered : Table.ofProgram environment program with
      | error error =>
          simp only [registered]
          rfl
      | ok table =>
          simp only [registered]
          rfl

/-- A tree has the table of the program that it declares, if that program is accepted. -/
theorem Table.ofTree_eq_ok_iff {environment : Environment} {tree : Syntax.Tree} {table : Table} :
    ofTree environment tree = .ok table ↔
      ∃ program, Program.ofTree tree = .ok program ∧ program.Accepted environment ∧
        table = program.table environment := by
  unfold ofTree
  cases Program.ofTree tree with
  | error errors => simp only [reduceCtorEq, false_and, exists_false]
  | ok program =>
      simp only [Except.ok.injEq, exists_eq_left', ← Program.ofProgram_eq_ok_iff]
      cases ofProgram environment program <;> simp

/-- What a unit adds to the log if its file has the given number. -/
def SourceUnit.entries (environment : Environment) (file : Nat) (unit : SourceUnit) :
    List LogEntry :=
  (Table.errorsOf environment unit.tree).map fun error => ⟨file, error.diagnostic file⟩

/-- A unit as it is compiled among units of the given names. -/
def SourceUnit.compiled (environment : Environment) (names : List String) (unit : SourceUnit) :
    CompiledUnit :=
  ⟨unit, firstPlace names unit.name, (Table.ofTree environment unit.tree).toOption⟩

theorem DiagnosticLog.foldl_raise (log : DiagnosticLog) (file : Nat)
    (errors : List SemanticError) :
    errors.foldl (fun log error => log.raise error.diagnostic file) log =
      { log with entries := log.entries ++ errors.map fun error =>
          ⟨file, error.diagnostic file⟩ } := by
  induction errors generalizing log with
  | nil => rw [List.foldl_nil, List.map_nil, List.append_nil]
  | cons error rest ih =>
      rw [List.foldl_cons, ih, List.map_cons]
      unfold raise add
      rw [List.append_assoc, List.singleton_append]

namespace Compilation

variable (environment : Environment) {compilation : Compilation} {before : List String}

/-- Adding a unit appends the unit and its errors. Nothing else of the log is read than the names
of its files. -/
theorem add_eq (known : compilation.log.Knows before) (unit : SourceUnit) :
    (compilation.add environment unit).units =
        compilation.units ++ [unit.compiled environment before] ∧
      (compilation.add environment unit).log.entries =
        compilation.log.entries ++ unit.entries environment (firstPlace before unit.name) ∧
      (compilation.add environment unit).log.Knows (before ++ [unit.name]) := by
  obtain ⟨log, added, same, knownAfter⟩ := known.addFile unit.name unit.text
  unfold add SourceUnit.compiled SourceUnit.entries Table.errorsOf
  rw [added, ← same]
  cases Table.ofTree environment unit.tree with
  | ok table => exact ⟨rfl, (List.append_nil _).symm, knownAfter⟩
  | error errors =>
      dsimp only
      rw [DiagnosticLog.foldl_raise]
      exact ⟨rfl, rfl, ⟨knownAfter.files, knownAfter.numbers⟩⟩

/-- The run of `add` over further units. The names added so far and those still to come make up one
list all along, so every unit can be given its place in that list from the start. -/
theorem foldl_add_eq (known : compilation.log.Knows before)
    (units : List SourceUnit) (names : List String)
    (all : names = before ++ units.map SourceUnit.name) :
    (units.foldl (add environment) compilation).units =
        compilation.units ++ units.map (SourceUnit.compiled environment names) ∧
      (units.foldl (add environment) compilation).log.entries =
        compilation.log.entries ++ units.flatMap fun unit =>
          unit.entries environment (firstPlace names unit.name) := by
  induction units generalizing compilation before with
  | nil => exact ⟨(List.append_nil _).symm, (List.append_nil _).symm⟩
  | cons unit rest ih =>
      have place : firstPlace before unit.name = firstPlace names unit.name := by
        rw [all, List.map_cons, firstPlace_cons]
      have same : unit.compiled environment before = unit.compiled environment names := by
        rw [SourceUnit.compiled, SourceUnit.compiled, place]
      obtain ⟨unitsAfter, entriesAfter, knownAfter⟩ := add_eq environment known unit
      have split : names = (before ++ [unit.name]) ++ rest.map SourceUnit.name := by
        rw [all, List.append_assoc]
        rfl
      obtain ⟨unitsRest, entriesRest⟩ := ih knownAfter split
      rw [List.foldl_cons, unitsRest, entriesRest, unitsAfter, entriesAfter, same, place,
        List.append_assoc, List.append_assoc]
      exact ⟨rfl, rfl⟩

theorem knows_empty : empty.log.Knows [] := .empty

theorem units_build (configuration : Configuration) (units : List SourceUnit) :
    (build configuration units).units =
      units.map (SourceUnit.compiled configuration.environment (units.map SourceUnit.name)) :=
  (foldl_add_eq configuration.environment knows_empty units _ rfl).1

theorem entries_build (configuration : Configuration) (units : List SourceUnit) :
    (build configuration units).log.entries = units.flatMap fun unit =>
      unit.entries configuration.environment (firstPlace (units.map SourceUnit.name) unit.name) :=
  (foldl_add_eq configuration.environment knows_empty units _ rfl).2

theorem tables_build (configuration : Configuration) (units : List SourceUnit) :
    (build configuration units).units.map CompiledUnit.table =
      units.map fun unit => (Table.ofTree configuration.environment unit.tree).toOption := by
  rw [units_build, List.map_map]
  rfl

/-- The table that a unit gets among others. -/
def tableAmong (configuration : Configuration) (before : List SourceUnit) (unit : SourceUnit)
    (after : List SourceUnit) : Option Table :=
  ((build configuration (before ++ unit :: after)).units[before.length]?).bind
    CompiledUnit.table

theorem tableAmong_eq (configuration : Configuration) (before : List SourceUnit)
    (unit : SourceUnit) (after : List SourceUnit) :
    tableAmong configuration before unit after =
      (Table.ofTree configuration.environment unit.tree).toOption := by
  unfold tableAmong
  rw [units_build, List.getElem?_map, List.getElem?_append_right (Nat.le_refl _), Nat.sub_self]
  rfl

end Compilation

end Bindery
