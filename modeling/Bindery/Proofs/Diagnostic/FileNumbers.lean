import Bindery.Diagnostic.Log

set_option autoImplicit false

/-! The numbers that files get. A log knows the names that were added to it, each once and in the
order in which they first came up, so the number of a file counts the names before its own. -/

namespace Bindery

/-! ### Names in the order of their first occurrence -/

/-- How many different names there are before the first occurrence of a name. -/
def firstPlace (names : List String) (name : String) : Nat :=
  (names.takeWhile (· ≠ name)).eraseDups.length

theorem takeWhile_ne_of_new {before : List String} {name : String} (new : name ∉ before)
    (after : List String) :
    (before ++ name :: after).takeWhile (· ≠ name) = before := by
  have others : ∀ other ∈ before, decide (other ≠ name) = true := by
    intro other member
    rw [decide_eq_true_eq]
    intro same
    exact new (same ▸ member)
  rw [List.takeWhile_append_of_pos others, List.takeWhile_cons_of_neg (by simp),
    List.append_nil]

theorem takeWhile_ne_of_absent {names : List String} {name : String} (absent : name ∉ names) :
    names.takeWhile (· ≠ name) = names := by
  have whole := takeWhile_ne_of_new absent []
  rw [List.takeWhile_append] at whole
  split at whole
  · rename_i complete
    exact List.takeWhile_sublist _ |>.eq_of_length complete
  · rename_i shorter
    exact whole

/-- What comes after the first occurrence of a name has no part in its place. -/
theorem firstPlace_of_mem {before : List String} {name : String} (member : name ∈ before)
    (after : List String) : firstPlace (before ++ after) name = firstPlace before name := by
  obtain ⟨front, rest, rfl, new⟩ := List.eq_append_cons_of_mem member
  rw [firstPlace, firstPlace, List.append_assoc, List.cons_append, takeWhile_ne_of_new new,
    takeWhile_ne_of_new new]

theorem firstPlace_cons (before : List String) (name : String) (after : List String) :
    firstPlace (before ++ name :: after) name = firstPlace before name := by
  by_cases member : name ∈ before
  · exact firstPlace_of_mem member _
  · rw [firstPlace, firstPlace, takeWhile_ne_of_new member, takeWhile_ne_of_absent member]

theorem firstPlace_singleton (name : String) : firstPlace [name] name = 0 :=
  firstPlace_cons [] name []

theorem eraseDups_concat {α : Type} [BEq α] [LawfulBEq α] (items : List α) (item : α) :
    (items ++ [item]).eraseDups =
      if item ∈ items then items.eraseDups else items.eraseDups ++ [item] := by
  rw [List.eraseDups_append, List.cons_removeAll]
  by_cases member : item ∈ items
  · rw [if_neg (by simpa using member), if_pos member]
    exact List.append_nil _
  · rw [if_pos (by simpa using member), if_neg member]
    rfl

/-- A name stands right behind the names that came before it. -/
theorem eraseDups_of_new {before : List String} {name : String} (new : name ∉ before)
    (after : List String) :
    ∃ others, (before ++ name :: after).eraseDups = before.eraseDups ++ name :: others := by
  rw [List.eraseDups_append, List.cons_removeAll, if_pos (by simpa using new),
    List.eraseDups_cons]
  exact ⟨_, rfl⟩

theorem getElem?_firstPlace {names : List String} {name : String} (member : name ∈ names) :
    names.eraseDups[firstPlace names name]? = some name := by
  obtain ⟨before, after, rfl, new⟩ := List.eq_append_cons_of_mem member
  obtain ⟨others, split⟩ := eraseDups_of_new new after
  rw [firstPlace, takeWhile_ne_of_new new, split, List.getElem?_append_right (Nat.le_refl _),
    Nat.sub_self, List.getElem?_cons_zero]

/-- Different names have different places. -/
theorem firstPlace_inj {names : List String} {name other : String} (member : name ∈ names)
    (otherMember : other ∈ names) :
    firstPlace names name = firstPlace names other ↔ name = other := by
  constructor
  · intro same
    have found := getElem?_firstPlace member
    rw [same, getElem?_firstPlace otherMember] at found
    exact (Option.some.inj found).symm
  · intro same
    rw [same]

theorem firstPlace_of_new {names : List String} {name : String} (new : name ∉ names) :
    firstPlace names name = names.eraseDups.length := by
  rw [firstPlace, takeWhile_ne_of_absent new]

/-- The place of a name, if it is there. -/
def place? (names : List String) (name : String) : Option Nat :=
  if name ∈ names then some (firstPlace names name) else none

theorem place?_concat_self (before : List String) (name : String) :
    place? (before ++ [name]) name = some (firstPlace before name) := by
  rw [place?, if_pos (List.mem_append_right _ List.mem_cons_self), firstPlace_cons]

theorem place?_concat {before : List String} {name other : String}
    (settled : other ∈ before ∨ other ≠ name) :
    place? (before ++ [name]) other = place? before other := by
  unfold place?
  by_cases member : other ∈ before
  · rw [if_pos member, if_pos (List.mem_append_left _ member), firstPlace_of_mem member]
  · have differs := settled.resolve_left member
    rw [if_neg member, if_neg (by simp [member, differs])]

/-! ### Adding files -/

namespace DiagnosticLog

/-- The names that were added to a log: its files have them once each, in the order in which they
first came up, and the number of each is its place among them. -/
structure Knows (log : DiagnosticLog) (names : List String) : Prop where
  files : log.files.map SourceFile.name = names.eraseDups
  numbers : ∀ name, log.fileId? name = place? names name

theorem Knows.empty : DiagnosticLog.empty.Knows [] := ⟨rfl, fun _name => rfl⟩

variable {log : DiagnosticLog} {before : List String} {name : String}

theorem Knows.addFile_of_mem (known : log.Knows before) (member : name ∈ before) (text : String) :
    log.addFile name text = (firstPlace before name, log) := by
  rw [DiagnosticLog.addFile, known.numbers, place?, if_pos member]

theorem Knows.addFile_of_new (known : log.Knows before) (new : name ∉ before) (text : String) :
    log.addFile name text = (firstPlace before name, { log with
      files := log.files ++ [⟨name, text⟩]
      numbers := (name, firstPlace before name) :: log.numbers }) := by
  have next : log.files.length = firstPlace before name := by
    rw [firstPlace_of_new new, ← known.files, List.length_map]
  rw [DiagnosticLog.addFile, known.numbers, place?, if_neg new, ← next]

theorem Knows.again (known : log.Knows before) (member : name ∈ before) :
    log.Knows (before ++ [name]) where
  files := by rw [known.files, eraseDups_concat, if_pos member]
  numbers other := by
    have settled : other ∈ before ∨ other ≠ name := by
      by_cases same : other = name
      · exact Or.inl (same ▸ member)
      · exact Or.inr same
    rw [known.numbers, place?_concat settled]

/-- A name that is new gets its place as number, and those before it keep theirs. -/
theorem Knows.enter (known : log.Knows before) (new : name ∉ before) (text : String) :
    Knows { log with
      files := log.files ++ [⟨name, text⟩]
      numbers := (name, firstPlace before name) :: log.numbers } (before ++ [name]) where
  files := by
    rw [List.map_append, known.files, eraseDups_concat, if_neg new]
    rfl
  numbers other := by
    rw [fileId?, List.lookup_cons]
    by_cases same : other = name
    · rw [same, beq_self_eq_true, place?_concat_self]
    · have differs : (other == name) = false := beq_eq_false_iff_ne.mpr same
      rw [differs, place?_concat (.inr same)]
      exact known.numbers other

/-- A file gets the place of its name among all the names that were added. -/
theorem Knows.addFile (known : log.Knows before) (name text : String) :
    ∃ next, log.addFile name text = (firstPlace before name, next) ∧
      next.entries = log.entries ∧ next.Knows (before ++ [name]) := by
  by_cases member : name ∈ before
  · exact ⟨log, known.addFile_of_mem member text, rfl, known.again member⟩
  · exact ⟨_, known.addFile_of_new member text, rfl, known.enter member text⟩

end DiagnosticLog

end Bindery
