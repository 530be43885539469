import Bindery.Proofs.Diagnostic.FileNumbers
import Mathlib.Algebra.BigOperators.Group.Finset.Basic
import Mathlib.Data.List.DropRight

set_option autoImplicit false

/-! A log after any run of calls, read off the calls. The numbers of files come from the names in
the order in which they were added, and nothing ever takes them back; the entries are those since
the log was cleared last, whatever file they were recorded against. -/

namespace Bindery

/-- A call that changes a log. -/
inductive LogStep where
  | addFile (name text : String)
  | raise (report : Nat → Diagnostic) (file : Nat)
  | add (file : Nat) (diagnostic : Diagnostic)
  | clear

namespace LogStep

def name? : LogStep → Option String
  | .addFile name _ => some name
  | .raise .. | .add .. | .clear => none

/-- What a call records. -/
def entry? : LogStep → Option LogEntry
  | .raise report file => some ⟨file, report file⟩
  | .add file diagnostic => some ⟨file, diagnostic⟩
  | .addFile .. | .clear => none

def isClear : LogStep → Bool
  | .clear => true
  | .addFile .. | .raise .. | .add .. => false

/-- The names that are added in a run of calls. -/
def names (steps : List LogStep) : List String := steps.filterMap name?

/-- What is recorded in a run of calls after the last time that the log is cleared. -/
def recorded (steps : List LogStep) : List LogEntry :=
  (steps.rtakeWhile fun step => !step.isClear).filterMap entry?

theorem names_cons (step : LogStep) (rest : List LogStep) :
    names (step :: rest) = step.name?.toList ++ names rest := by
  unfold names
  cases name : step.name? <;> simp [name]

theorem recorded_concat (steps : List LogStep) (step : LogStep) :
    recorded (steps ++ [step]) =
      if step.isClear then [] else recorded steps ++ step.entry?.toList := by
  unfold recorded
  cases clear : step.isClear with
  | true =>
      rw [List.rtakeWhile_concat_neg _ _ _ (by simp [clear]), if_pos rfl, List.filterMap_nil]
  | false =>
      rw [List.rtakeWhile_concat_pos _ _ _ (by simp [clear]), List.filterMap_append,
        if_neg Bool.false_ne_true]
      cases entry : step.entry? <;> simp [entry]

end LogStep

namespace DiagnosticLog

open LogStep

def step (log : DiagnosticLog) : LogStep → DiagnosticLog
  | .addFile name text => (log.addFile name text).2
  | .raise report file => log.raise report file
  | .add file diagnostic => log.add file diagnostic
  | .clear => log.clear

def run (log : DiagnosticLog) (steps : List LogStep) : DiagnosticLog := steps.foldl step log

/-- The name that a call adds, with the number that is given back for it. -/
def answer? (log : DiagnosticLog) : LogStep → Option (String × Nat)
  | .addFile name text => some (name, (log.addFile name text).1)
  | .raise .. | .add .. | .clear => none

/-- What is given back in a run of calls. -/
def answers : DiagnosticLog → List LogStep → List (String × Nat)
  | _, [] => []
  | log, step :: rest => (log.answer? step).toList ++ answers (log.step step) rest

variable {log : DiagnosticLog} {before : List String}

/-! ### Names -/

/-- Only a call that adds a file has to do with names. -/
theorem Knows.step (known : log.Knows before) (step : LogStep) :
    (log.step step).Knows (before ++ step.name?.toList) := by
  cases step with
  | addFile name text =>
      obtain ⟨next, added, _entries, knows⟩ := known.addFile name text
      have stepped : log.step (.addFile name text) = next := congrArg Prod.snd added
      rw [stepped]
      exact knows
  | raise report file | add file diagnostic | clear =>
      rw [name?, Option.toList_none, List.append_nil]
      exact ⟨known.files, known.numbers⟩

theorem Knows.run (known : log.Knows before) (steps : List LogStep) :
    (log.run steps).Knows (before ++ names steps) := by
  induction steps generalizing log before with
  | nil => exact (List.append_nil before).symm ▸ known
  | cons step rest ih =>
      rw [names_cons, ← List.append_assoc]
      exact ih (known.step step)

theorem Knows.answer?_eq (known : log.Knows before) (step : LogStep) :
    log.answer? step = step.name?.map fun name => (name, firstPlace before name) := by
  cases step with
  | addFile name text =>
      obtain ⟨next, added, _entries, _knows⟩ := known.addFile name text
      rw [answer?, added]
      rfl
  | raise report file | add file diagnostic | clear => rfl

/-- The names so far and those still to come make up one list, in which every name has its place
from the start. -/
theorem Knows.answers_eq (known : log.Knows before) (steps : List LogStep) {all : List String}
    (split : all = before ++ names steps) :
    log.answers steps = (names steps).map fun name => (name, firstPlace all name) := by
  induction steps generalizing log before with
  | nil => rfl
  | cons step rest ih =>
      rw [names_cons] at split
      have later : all = (before ++ step.name?.toList) ++ names rest := by
        rw [split, List.append_assoc]
      rw [answers, known.answer?_eq, ih (known.step step) later, names_cons, List.map_append]
      cases added : step.name? with
      | none => rfl
      | some name =>
          have place : firstPlace all name = firstPlace before name := by
            rw [split, added]
            exact firstPlace_cons before name _
          rw [Option.toList_some, List.map_singleton, place]
          rfl

/-- Without repetitions the names stand with the numbers from zero on. -/
theorem eraseDups_firstPlaces (names : List String) :
    (names.map fun name => (name, firstPlace names name)).eraseDups =
      names.eraseDups.zipIdx := by
  induction names using List.reverseRecOn with
  | nil => rfl
  | append_singleton names name ih =>
      have earlier : (names.map fun other => (other, firstPlace (names ++ [name]) other)) =
          names.map fun other => (other, firstPlace names other) := by
        apply List.map_congr_left
        intro other member
        rw [firstPlace_of_mem member]
      have listed : (name, firstPlace names name) ∈
          (names.map fun other => (other, firstPlace names other)) ↔ name ∈ names := by
        simp only [List.mem_map, Prod.mk.injEq]
        constructor
        · rintro ⟨other, member, rfl, _same⟩
          exact member
        · intro member
          exact ⟨name, member, rfl, rfl⟩
      rw [List.map_append, earlier, List.map_singleton, firstPlace_cons names name [],
        eraseDups_concat, eraseDups_concat, ih]
      by_cases member : name ∈ names
      · rw [if_pos (listed.mpr member), if_pos member]
      · rw [if_neg (mt listed.mp member), if_neg member, List.zipIdx_append,
          firstPlace_of_new member, Nat.zero_add]
        rfl

/-! ### Entries -/

theorem entries_step (log : DiagnosticLog) (step : LogStep) :
    (log.step step).entries =
      if step.isClear then [] else log.entries ++ step.entry?.toList := by
  cases step with
  | addFile name text =>
      have kept : (log.addFile name text).2.entries = log.entries := by
        unfold addFile
        split <;> rfl
      exact kept.trans (List.append_nil _).symm
  | raise report file | add file diagnostic | clear => rfl

theorem entries_run (steps : List LogStep) : (empty.run steps).entries = recorded steps := by
  induction steps using List.reverseRecOn with
  | nil => rfl
  | append_singleton steps step ih =>
      rw [recorded_concat, ← ih, ← entries_step, run, List.foldl_concat]
      rfl

/-! ### Errors -/

/-- The entries of which the severity is that of an error. -/
def errorsAmong (entries : List LogEntry) : List LogEntry :=
  entries.filter fun entry =>
    entry.diagnostic.severity = .error ∨ entry.diagnostic.severity = .bug

theorem isError_eq (diagnostic : Diagnostic) :
    diagnostic.isError = decide (diagnostic.severity = .error ∨ diagnostic.severity = .bug) := by
  rw [Diagnostic.isError]
  cases diagnostic.severity <;> rfl

theorem errorCount_eq (log : DiagnosticLog) :
    log.errorCount = (errorsAmong log.entries).length := by
  simp only [errorCount, errorsAmong, isError_eq]

theorem hasErrorsIn_iff (log : DiagnosticLog) (file : Nat) :
    log.hasErrorsIn file = true ↔ ∃ entry ∈ errorsAmong log.entries, entry.file = file := by
  simp only [hasErrorsIn, errorsAmong, isError_eq, List.any_eq_true, List.mem_filter,
    Bool.and_eq_true, decide_eq_true_eq]
  constructor
  · rintro ⟨entry, member, same, severe⟩
    exact ⟨entry, ⟨member, severe⟩, same⟩
  · rintro ⟨entry, ⟨member, severe⟩, same⟩
    exact ⟨entry, member, same, severe⟩

/-- One filter looks for a first error, the other counts them all. -/
theorem hasErrors_iff (log : DiagnosticLog) : log.hasErrors = true ↔ 0 < log.errorCount := by
  rw [hasErrors, List.any_eq_true, errorCount, List.length_pos_iff_exists_mem]
  simp only [List.mem_filter]

theorem errorCount_pos_iff (log : DiagnosticLog) :
    0 < log.errorCount ↔ ∃ file, log.hasErrorsIn file = true := by
  rw [errorCount_eq, List.length_pos_iff_exists_mem]
  simp only [hasErrorsIn_iff]
  constructor
  · rintro ⟨entry, member⟩
    exact ⟨entry.file, entry, member, rfl⟩
  · rintro ⟨_file, entry, member, _same⟩
    exact ⟨entry, member⟩

theorem length_eq_sum_by_file (entries : List LogEntry) :
    entries.length = ∑ file ∈ (entries.map LogEntry.file).toFinset,
      (entries.filter fun entry => entry.file = file).length := by
  calc
    entries.length = (entries.map LogEntry.file).length := (List.length_map _).symm
    _ = ∑ file ∈ (entries.map LogEntry.file).toFinset, (entries.map LogEntry.file).count file :=
        (List.sum_toFinset_count_eq_length _).symm
    _ = _ := by
        apply Finset.sum_congr rfl
        intro file _member
        rw [List.count_eq_countP, List.countP_map, List.countP_eq_length_filter]
        rfl

/-! ### Runs on a fresh log -/

/-- A name that was added is found with its number, and adding it again changes nothing. -/
theorem Knows.settled {all : List String} (known : log.Knows all) {name : String}
    (member : name ∈ all) :
    log.fileId? name = some (firstPlace all name) ∧
      log.files[firstPlace all name]?.map SourceFile.name = some name ∧
      ∀ text, log.addFile name text = (firstPlace all name, log) := by
  refine ⟨?_, ?_, known.addFile_of_mem member⟩
  · rw [known.numbers, place?, if_pos member]
  · rw [← List.getElem?_map, known.files, getElem?_firstPlace member]

/-- After any run of calls on a fresh log, the names that were added are numbered from zero on in
the order in which they first came up, one number for each name. A number stays, whatever is called
later: the name is found with it, the file of that number bears the name, and adding the name again
changes nothing. The entries are those that were recorded since the log was cleared last, in order;
the count of their errors is the sum of the counts for each file, and there are errors exactly if
some file has one. -/
theorem run_bookkeeping (steps : List LogStep) :
    let log := empty.run steps
    let answers := empty.answers steps
    let errors := errorsAmong (recorded steps)
    (answers.map Prod.fst = names steps ∧
      answers.eraseDups = (names steps).eraseDups.zipIdx ∧
      ∀ first ∈ answers, ∀ second ∈ answers, first.2 = second.2 ↔ first.1 = second.1) ∧
    (∀ name number, (name, number) ∈ answers → ∀ later,
      let after := log.run later
      after.fileId? name = some number ∧
        after.files[number]?.map SourceFile.name = some name ∧
        ∀ text, after.addFile name text = (number, after)) ∧
    (∀ name, name ∉ names steps → log.fileId? name = none ∧
      ∀ text, (log.addFile name text).1 = (names steps).eraseDups.length) ∧
    log.diagnostics = (recorded steps).map LogEntry.diagnostic ∧
    log.messages = (recorded steps).map (fun entry => entry.diagnostic.message) ∧
    log.size = (recorded steps).length ∧
    log.errorCount = errors.length ∧
    log.errorCount = ∑ file ∈ (errors.map LogEntry.file).toFinset,
      (errors.filter fun entry => entry.file = file).length ∧
    (∀ file, log.hasErrorsIn file = true ↔ ∃ entry ∈ errors, entry.file = file) ∧
    (log.hasErrors = true ↔ 0 < log.errorCount) ∧
    (0 < log.errorCount ↔ ∃ file, log.hasErrorsIn file = true) := by
  intro log answers errors
  have known : log.Knows (names steps) := Knows.empty.run steps
  have given : answers = (names steps).map fun name => (name, firstPlace (names steps) name) :=
    Knows.empty.answers_eq steps rfl
  have entries : log.entries = recorded steps := entries_run steps
  have counted : log.errorCount = errors.length := by rw [errorCount_eq, entries]
  refine ⟨⟨?_, ?_, ?_⟩, ?_, ?_, ?_, ?_, ?_, counted, ?_, ?_, log.hasErrors_iff,
    log.errorCount_pos_iff⟩
  · rw [given, List.map_map]
    exact List.map_id _
  · rw [given, eraseDups_firstPlaces]
  · rw [given]
    simp only [List.forall_mem_map]
    intro first member second otherMember
    exact firstPlace_inj member otherMember
  · intro name number answered later after
    rw [given, List.mem_map] at answered
    obtain ⟨_name, member, same⟩ := answered
    obtain ⟨rfl, rfl⟩ := Prod.mk.inj same
    have stays := (known.run later).settled (List.mem_append_left _ member)
    rw [firstPlace_of_mem member] at stays
    exact stays
  · intro name new
    constructor
    · rw [known.numbers, place?, if_neg new]
    · intro text
      rw [known.addFile_of_new new, firstPlace_of_new new]
  · rw [diagnostics, entries]
  · rw [messages, diagnostics, entries, List.map_map]
    rfl
  · rw [size, entries]
  · rw [counted, length_eq_sum_by_file errors]
  · intro file
    rw [hasErrorsIn_iff, entries]

/-- The first report is cleared, one file is added again, and one report is about no file. -/
def sampleCalls : List LogStep := [
  .addFile "b" "let",
  .raise (fun file => ⟨.error, "unexpected", [⟨.primary, file, ⟨0, 3⟩, ""⟩], []⟩) 0,
  .clear,
  .addFile "a" "",
  .addFile "b" "",
  .add 7 ⟨.warning, "unused", [], []⟩,
  .add 7 ⟨.bug, "unreachable", [], []⟩,
  .raise (fun file => ⟨.error, "undefined", [⟨.primary, file, ⟨0, 0⟩, ""⟩], []⟩) 1]

theorem run_bookkeeping_sample :
    empty.answers sampleCalls = [("b", 0), ("a", 1), ("b", 0)] ∧
      (∀ later, ((empty.run sampleCalls).run later).fileId? "b" = some 0) ∧
      (empty.run sampleCalls).fileId? "c" = none ∧
      (empty.run sampleCalls).messages = ["unused", "unreachable", "undefined"] ∧
      (empty.run sampleCalls).errorCount = 2 ∧
      (empty.run sampleCalls).hasErrorsIn 7 = true := by
  obtain ⟨_numbers, stays, absent, _diagnostics, messages, _size, count, _sum, within, _some⟩ :=
    run_bookkeeping sampleCalls
  exact ⟨rfl, fun later => (stays "b" 0 (by decide) later).1, (absent "c" (by decide)).1,
    messages, count, (within 7).mpr ⟨_, List.mem_cons_self, rfl⟩⟩

end DiagnosticLog

end Bindery
