set_option autoImplicit false

/-! Named entries and the order in which they were added. An entry is looked up by its name; the
order of the names is kept beside the entries. -/

namespace Bindery

structure Registry (α : Type) where
  order : List String
  entries : List (String × α)

namespace Registry

variable {α : Type}

def empty : Registry α := ⟨[], []⟩

def find? (registry : Registry α) (name : String) : Option α := registry.entries.lookup name

def contains (registry : Registry α) (name : String) : Bool := (registry.find? name).isSome

/-- The entries as they are found along the order. A name without an entry is passed over. -/
def values (registry : Registry α) : List α := registry.order.filterMap registry.find?

def size (registry : Registry α) : Nat := registry.entries.length

/-- Puts a name at the end of the order, and an entry in place of any that the name has. The caller
has made sure that the name is new. -/
def add (registry : Registry α) (name : String) (value : α) : Registry α where
  order := registry.order ++ [name]
  entries := registry.entries.filter (fun entry => entry.1 != name) ++ [(name, value)]

/-- Changes the entry of a name. -/
def modify (registry : Registry α) (name : String) (change : α → α) : Registry α where
  order := registry.order
  entries := registry.entries.map fun entry =>
    if entry.1 = name then (entry.1, change entry.2) else entry

theorem lookup_without (entries : List (String × α)) (name other : String) :
    (entries.filter fun entry => entry.1 != name).lookup other =
      if other = name then none else entries.lookup other := by
  induction entries with
  | nil => split <;> rfl
  | cons entry rest ih =>
      rw [List.filter_cons, List.lookup_cons]
      by_cases same : entry.1 = name
      · have dropped : (entry.1 != name) = false := by simp [same]
        rw [dropped, if_neg Bool.false_ne_true, ih]
        by_cases found : other = name
        · rw [if_pos found, if_pos found]
        · have differs : (other == entry.1) = false := beq_eq_false_iff_ne.mpr (same ▸ found)
          rw [if_neg found, if_neg found, differs]
      · have kept : (entry.1 != name) = true := by simp [same]
        rw [kept, if_pos rfl, List.lookup_cons, ih]
        by_cases found : other = entry.1
        · have new : ¬ other = name := fun equal => same (found ▸ equal)
          rw [if_neg new, if_neg new]
        · have differs : (other == entry.1) = false := beq_eq_false_iff_ne.mpr found
          rw [differs]

/-- A name that is added is found with its entry, and hides no other. -/
theorem find?_add (registry : Registry α) (name other : String) (value : α) :
    (registry.add name value).find? other =
      if other = name then some value else registry.find? other := by
  unfold find? add
  rw [List.lookup_append, lookup_without]
  by_cases same : other = name
  · subst same
    simp
  · have differs : (other == name) = false := beq_eq_false_iff_ne.mpr same
    simp [List.lookup_cons, differs, same]

/-- A name that has no entry keeps the others where they are. -/
theorem entries_add {registry : Registry α} {name : String}
    (absent : registry.find? name = none) (value : α) :
    (registry.add name value).entries = registry.entries ++ [(name, value)] := by
  have others : ∀ entry ∈ registry.entries, (entry.1 != name) = true := by
    intro entry member
    have differs := List.lookup_eq_none_iff.mp absent entry member
    rw [bne_comm]
    exact differs
  rw [add, List.filter_eq_self.mpr others]

theorem find?_modify (registry : Registry α) (name other : String) (change : α → α) :
    (registry.modify name change).find? other =
      (registry.find? other).map fun value => if other = name then change value else value := by
  unfold find? modify
  dsimp only
  induction registry.entries with
  | nil => rfl
  | cons entry rest ih =>
      rw [List.map_cons, List.lookup_cons, List.lookup_cons]
      have key : (if entry.1 = name then (entry.1, change entry.2) else entry).1 = entry.1 := by
        split <;> rfl
      rw [key, ih]
      by_cases found : other = entry.1
      · subst found
        by_cases same : entry.1 = name <;> simp [same]
      · have differs : (other == entry.1) = false := beq_eq_false_iff_ne.mpr found
        simp only [differs]

end Registry

end Bindery
