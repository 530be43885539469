import Bindery.Ty

set_option autoImplicit false

/-! The type names that a compilation provides before any declaration. -/

namespace Bindery

/-- A set of names, kept as a list in which no name stands twice. -/
structure Environment where
  names : List String
  distinct : names.Nodup

namespace Environment

def empty : Environment := ⟨[], List.nodup_nil⟩

def contains (environment : Environment) (name : String) : Bool := environment.names.contains name

def size (environment : Environment) : Nat := environment.names.length

private theorem nodup_append_singleton {names : List String} (distinct : names.Nodup)
    (name : String) (absent : ¬ name ∈ names) : (names ++ [name]).Nodup := by
  rw [List.nodup_append]
  refine ⟨distinct, List.pairwise_singleton _ _, ?_⟩
  intro earlier member later same equal
  rw [List.mem_singleton] at same
  exact absent (same ▸ equal ▸ member)

/-- Adds a name. A name that is known already changes nothing. -/
def insert (environment : Environment) (name : String) : Environment :=
  if known : name ∈ environment.names then environment
  else ⟨environment.names ++ [name], nodup_append_singleton environment.distinct name known⟩

theorem contains_insert (environment : Environment) (name other : String) :
    (environment.insert name).contains other =
      (environment.contains other || decide (other = name)) := by
  unfold insert contains
  by_cases known : name ∈ environment.names
  · rw [dif_pos known]
    by_cases same : other = name
    · subst same
      simp [known]
    · simp [same]
  · rw [dif_neg known]
    simp [List.contains_eq_mem]

def insertAll (environment : Environment) (names : List String) : Environment :=
  names.foldl insert environment

def prelude : Environment := empty.insertAll preludeNames

/-- Whether two environments hold the same names, in whatever order they were added. -/
def same (left right : Environment) : Bool :=
  left.names.all right.contains && right.names.all left.contains

end Environment

/-- What a compilation provides: the prelude, unless it is left out, and further names. -/
structure Configuration where
  withPrelude : Bool := true
  extraNames : List String := []

def Configuration.environment (configuration : Configuration) : Environment :=
  (if configuration.withPrelude then Environment.prelude else Environment.empty).insertAll
    configuration.extraNames

end Bindery
