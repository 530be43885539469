import Bindery.Expectation
import Bindery.Proofs.Compilation.Independence

set_option autoImplicit false

/-! Whose errors are reported for whom. Errors are kept by file and files by name, so a unit answers
for the errors of all units of its name; whether a unit has a table is its own affair. The two agree
unless a unit that has a table shares its name with one that has none. -/

namespace Bindery

namespace SourceUnit

theorem any_entries_in (environment : Environment) (file other : Nat) (unit : SourceUnit) :
    ((unit.entries environment file).any fun entry =>
        entry.file = other && entry.diagnostic.isError) =
      (decide (file = other) && (Table.ofTree environment unit.tree).toOption.isNone) := by
  rw [← Option.not_isSome, Table.isSome_ofTree]
  unfold entries
  cases Table.errorsOf environment unit.tree with
  | nil => exact (Bool.and_false _).symm
  | cons error rest =>
      by_cases same : file = other
      · simp [same, SemanticError.isError_diagnostic]
      · simp [same]

end SourceUnit

namespace Compilation

/-- Whether a unit of that name has no table. -/
def fails (compilation : Compilation) (name : String) : Bool :=
  compilation.units.any fun unit => unit.source.name = name && unit.table.isNone

/-- Whether a unit has a table, but another unit of its name has none. -/
def blamed (compilation : Compilation) (unit : CompiledUnit) : Bool :=
  unit.table.isSome && compilation.fails unit.source.name

theorem fails_iff (compilation : Compilation) (name : String) :
    compilation.fails name = true ↔
      ∃ unit ∈ compilation.units, unit.source.name = name ∧ unit.table = none := by
  simp only [fails, List.any_eq_true, Bool.and_eq_true, decide_eq_true_eq,
    Option.isNone_iff_eq_none]

theorem fails_of_table {compilation : Compilation} {unit : CompiledUnit}
    (member : unit ∈ compilation.units) (failed : unit.table = none) :
    compilation.fails unit.source.name = true :=
  (compilation.fails_iff _).mpr ⟨unit, member, rfl, failed⟩

/-- That the errors of a name tell whether a unit of that name failed is the same as that it is not
blamed for others. -/
theorem fails_iff_table_iff {compilation : Compilation} {unit : CompiledUnit}
    (member : unit ∈ compilation.units) :
    (compilation.fails unit.source.name = true ↔ unit.table = none) ↔
      compilation.blamed unit = false := by
  have own := fails_of_table member
  unfold blamed
  cases table : unit.table with
  | none =>
      rw [own table]
      exact ⟨fun _ => rfl, fun _ => ⟨fun _ => rfl, fun _ => rfl⟩⟩
  | some built => simp

variable {configuration : Configuration} {units : List SourceUnit}

/-- Two units have one file exactly if they have one name. -/
theorem file_eq_iff {unit other : CompiledUnit}
    (member : unit ∈ (build configuration units).units)
    (otherMember : other ∈ (build configuration units).units) :
    unit.file = other.file ↔ unit.source.name = other.source.name := by
  rw [units_build] at member otherMember
  obtain ⟨source, added, rfl⟩ := List.mem_map.mp member
  obtain ⟨otherSource, otherAdded, rfl⟩ := List.mem_map.mp otherMember
  exact firstPlace_inj (List.mem_map_of_mem added) (List.mem_map_of_mem otherAdded)

theorem hasErrorsIn_iff (file : Nat) :
    (build configuration units).log.hasErrorsIn file = true ↔
      ∃ unit ∈ (build configuration units).units, unit.file = file ∧ unit.table = none := by
  have counted : (build configuration units).log.hasErrorsIn file =
      (build configuration units).units.any fun unit =>
        unit.file = file && unit.table.isNone := by
    rw [DiagnosticLog.hasErrorsIn, entries_build, units_build, List.any_flatMap, List.any_map]
    congr
    funext unit
    exact unit.any_entries_in _ _ _
  simp only [counted, List.any_eq_true, Bool.and_eq_true, decide_eq_true_eq,
    Option.isNone_iff_eq_none]

theorem hasErrorsIn_file {unit : CompiledUnit}
    (member : unit ∈ (build configuration units).units) :
    (build configuration units).log.hasErrorsIn unit.file =
      (build configuration units).fails unit.source.name := by
  rw [Bool.eq_iff_iff, hasErrorsIn_iff, fails_iff]
  exact exists_congr fun other => and_congr_right fun otherMember =>
    and_congr_left fun _failed => file_eq_iff otherMember member

theorem unit?_eq_some {compilation : Compilation} {name : String} {unit : CompiledUnit}
    (found : compilation.unit? name = some unit) :
    unit ∈ compilation.units ∧ unit.source.name = name := by
  have named := List.find?_some found
  exact ⟨List.mem_of_find?_eq_some found, of_decide_eq_true named⟩

theorem expect_eq_ok_iff (condition : Bool) (mismatch : Mismatch) :
    expect condition mismatch = .ok () ↔ condition = true := by
  cases condition with
  | false =>
      constructor
      · intro impossible
        cases impossible
      · intro impossible
        cases impossible
  | true => exact ⟨fun _ => rfl, fun _ => rfl⟩

theorem check_builds {name : String} {unit : CompiledUnit}
    (found : (build configuration units).unit? name = some unit) :
    Expectation.check (build configuration units) (.unitBuilds name true) = .ok () ↔
      ¬ (build configuration units).fails name = true := by
  obtain ⟨member, named⟩ := unit?_eq_some found
  have own := fails_of_table member
  rw [Expectation.check, found]
  dsimp only
  rw [if_pos rfl, expect_eq_ok_iff, hasErrorsIn_file member, ← named]
  cases table : unit.table with
  | none => simp [own table]
  | some built => simp

theorem check_fails {name : String} {unit : CompiledUnit}
    (found : (build configuration units).unit? name = some unit) :
    Expectation.check (build configuration units) (.unitBuilds name false) = .ok () ↔
      unit.table = none := by
  obtain ⟨member, named⟩ := unit?_eq_some found
  have own := fails_of_table member
  rw [Expectation.check, found]
  dsimp only
  rw [if_neg Bool.false_ne_true, expect_eq_ok_iff, hasErrorsIn_file member]
  cases table : unit.table with
  | none => simp [own table]
  | some built => simp

/-- The errors in a unit's file are those of all units of its name. They tell whether the unit
itself has a table exactly if it is not blamed for another, and only then does exactly one of the
two expectations about its name hold. -/
theorem errors_by_name (configuration : Configuration) (units : List SourceUnit) :
    let compilation := build configuration units
    (∀ unit ∈ compilation.units,
      (compilation.log.hasErrorsIn unit.file = true ↔
        ∃ other ∈ compilation.units,
          other.source.name = unit.source.name ∧ other.table = none) ∧
      ((compilation.log.hasErrorsIn unit.file = true ↔ unit.table = none) ↔
        compilation.blamed unit = false)) ∧
    ∀ name unit, compilation.unit? name = some unit →
      (Expectation.check compilation (.unitBuilds name true) = .ok () ↔
        ¬ ∃ other ∈ compilation.units, other.source.name = name ∧ other.table = none) ∧
      (Expectation.check compilation (.unitBuilds name false) = .ok () ↔ unit.table = none) ∧
      ((Expectation.check compilation (.unitBuilds name true) = .ok () ↔
          ¬ Expectation.check compilation (.unitBuilds name false) = .ok ()) ↔
        compilation.blamed unit = false) := by
  intro compilation
  constructor
  · intro unit member
    rw [hasErrorsIn_file member, ← fails_iff]
    exact ⟨Iff.rfl, fails_iff_table_iff member⟩
  · intro name unit found
    obtain ⟨member, rfl⟩ := unit?_eq_some found
    rw [check_builds found, check_fails found, ← fails_iff, ← fails_iff_table_iff member]
    exact ⟨Iff.rfl, Iff.rfl, Decidable.not_iff_not⟩

def sampleBuilding : SourceUnit :=
  ⟨"a", "x=1", .node .program [
    .node .binding [
      .token .identifier "x", .token .equals "=", .node .intLiteral [.token .integer "1"]]]⟩

def sampleFailing : SourceUnit :=
  ⟨"a", "x", .node .program [.node .binding [.token .identifier "x"]]⟩

theorem errors_by_name_sample :
    let compilation := build {} [sampleFailing, sampleBuilding]
    ∃ unit, compilation.unit? "a" = some unit ∧ unit.table = none ∧
      Expectation.check compilation (.unitBuilds "a" false) = .ok () ∧
      ¬ Expectation.check compilation (.unitBuilds "a" true) = .ok () := by
  have byName := (errors_by_name {} [sampleFailing, sampleBuilding]).2 "a" _ rfl
  refine ⟨_, rfl, rfl, byName.2.1.mpr rfl, ?_⟩
  intro builds
  exact byName.1.mp builds ⟨_, List.mem_cons_self, rfl, rfl⟩

/-- A unit that builds has errors in its file if a later one of its name fails, and is then said
neither to build nor to fail. -/
theorem building_unit_blamed :
    let compilation := build {} [sampleBuilding, sampleFailing]
    ∃ unit ∈ compilation.units, compilation.unit? "a" = some unit ∧
      compilation.log.hasErrorsIn unit.file = true ∧ unit.table ≠ none ∧
      Expectation.check compilation (.unitBuilds "a" true) ≠ .ok () ∧
      Expectation.check compilation (.unitBuilds "a" false) ≠ .ok () := by
  refine ⟨_, List.mem_cons_self, rfl, rfl, ?_, ?_, ?_⟩
  · intro h; cases h
  · intro h; cases h
  · intro h; cases h

end Compilation

end Bindery
