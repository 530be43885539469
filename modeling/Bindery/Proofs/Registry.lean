import Bindery.Registry
import Mathlib.Data.List.Nodup
import Mathlib.Data.List.Perm.Basic

set_option autoImplicit false

/-! Registries of which the order and the entries agree. Nothing in their form keeps a name from
standing twice in the order, or from standing there without an entry, and such a name would be
listed twice or passed over. A registry to which only new names are added lists every entry once.
-/

namespace Bindery.Registry

variable {α β : Type} {registry : Registry α} {name : String}

def keys (registry : Registry α) : List String := registry.entries.map Prod.fst

/-- The order and the entries have the same names, none of them twice. -/
structure Sound (registry : Registry α) : Prop where
  orderDistinct : registry.order.Nodup
  keysDistinct : registry.keys.Nodup
  same : ∀ name, name ∈ registry.order ↔ name ∈ registry.keys

/-- Every entry stands under its own name. -/
def Named (nameOf : α → String) (registry : Registry α) : Prop :=
  ∀ entry ∈ registry.entries, nameOf entry.2 = entry.1

theorem mem_keys_iff : name ∈ registry.keys ↔ ∃ value, registry.find? name = some value := by
  rw [← Option.isSome_iff_exists, ← not_iff_not, Bool.not_eq_true, Option.isSome_eq_false_iff,
    Option.isNone_iff_eq_none, find?, List.lookup_eq_none_iff, keys, List.mem_map]
  simp only [bne_iff_ne, ne_eq, Prod.exists, exists_and_right, exists_eq_right, not_exists,
    Prod.forall]
  constructor
  · intro absent key value member same
    subst same
    exact absent value member
  · intro absent value member
    exact absent name value member rfl

theorem notMem_keys_of_find? (absent : registry.find? name = none) : name ∉ registry.keys := by
  rw [mem_keys_iff, absent]
  rintro ⟨value, impossible⟩
  cases impossible

theorem keys_modify (registry : Registry α) (name : String) (change : α → α) :
    (registry.modify name change).keys = registry.keys := by
  unfold keys modify
  rw [List.map_map]
  apply List.map_congr_left
  intro entry _member
  rw [Function.comp_apply]
  split <;> rfl

/-- A change that a view does not show leaves the view of the listing as it was. -/
theorem map_values_modify (registry : Registry α) (name : String) (change : α → α)
    (view : α → β) (hidden : ∀ value, view (change value) = view value) :
    (registry.modify name change).values.map view = registry.values.map view := by
  rw [values, values, List.map_filterMap, List.map_filterMap]
  apply List.filterMap_congr
  intro other _member
  rw [find?_modify, Option.map_map]
  congr 1
  funext value
  rw [Function.comp_apply]
  split
  · exact hidden value
  · rfl

namespace Named

variable {nameOf : α → String}

theorem empty : (Registry.empty : Registry α).Named nameOf := List.forall_mem_nil _

theorem add {value : α} (named : registry.Named nameOf) (absent : registry.find? name = none)
    (own : nameOf value = name) : (registry.add name value).Named nameOf := by
  rw [Named, entries_add absent, List.forall_mem_append, List.forall_mem_singleton]
  exact ⟨named, own⟩

theorem modify (named : registry.Named nameOf) (name : String) (change : α → α)
    (kept : ∀ value, nameOf (change value) = nameOf value) :
    (registry.modify name change).Named nameOf := by
  intro entry member
  obtain ⟨earlier, present, rfl⟩ := List.mem_map.mp member
  have own := named earlier present
  split
  · exact (kept earlier.2).trans own
  · exact own

end Named

namespace Sound

theorem empty : (Registry.empty : Registry α).Sound :=
  ⟨List.nodup_nil, List.nodup_nil, fun _name => Iff.rfl⟩

theorem notMem_order (sound : registry.Sound) (absent : registry.find? name = none) :
    name ∉ registry.order := by
  rw [sound.same]
  exact notMem_keys_of_find? absent

theorem add (sound : registry.Sound) (absent : registry.find? name = none) (value : α) :
    (registry.add name value).Sound := by
  have keysAdd : (registry.add name value).keys = registry.keys ++ [name] := by
    rw [keys, entries_add absent, List.map_append]
    rfl
  have new := sound.notMem_order absent
  constructor
  · change (registry.order ++ [name]).Nodup
    rw [← List.concat_eq_append, List.nodup_concat]
    exact ⟨new, sound.orderDistinct⟩
  · rw [keysAdd, ← List.concat_eq_append, List.nodup_concat]
    exact ⟨notMem_keys_of_find? absent, sound.keysDistinct⟩
  · intro other
    rw [keysAdd, List.mem_append, ← sound.same]
    exact List.mem_append

theorem modify (sound : registry.Sound) (name : String) (change : α → α) :
    (registry.modify name change).Sound where
  orderDistinct := sound.orderDistinct
  keysDistinct := by
    rw [keys_modify]
    exact sound.keysDistinct
  same other := by
    rw [keys_modify]
    exact sound.same other

theorem find?_eq_some_iff (sound : registry.Sound) (value : α) :
    registry.find? name = some value ↔ (name, value) ∈ registry.entries := by
  rw [find?, List.lookup_eq_some_iff]
  constructor
  · rintro ⟨before, after, split, _new⟩
    rw [split]
    exact List.mem_append_right before List.mem_cons_self
  · intro member
    obtain ⟨before, after, split⟩ := List.append_of_mem member
    refine ⟨before, after, split, ?_⟩
    intro entry earlier
    rw [bne_iff_ne]
    intro equal
    have distinct := sound.keysDistinct
    rw [keys, split, List.map_append, List.nodup_append] at distinct
    exact distinct.2.2 entry.1 (List.mem_map.mpr ⟨entry, earlier, rfl⟩) name
      List.mem_cons_self equal.symm

/-! ### The listing -/

/-- A new name puts its entry at the end of the listing. -/
theorem values_add (sound : registry.Sound) (absent : registry.find? name = none) (value : α) :
    (registry.add name value).values = registry.values ++ [value] := by
  have own : (registry.add name value).find? name = some value := by
    rw [find?_add, if_pos rfl]
  have others : ∀ other ∈ registry.order,
      (registry.add name value).find? other = registry.find? other := by
    intro other member
    rw [find?_add, if_neg]
    exact fun equal => sound.notMem_order absent (equal ▸ member)
  change (registry.order ++ [name]).filterMap (registry.add name value).find? = _
  rw [List.filterMap_append, List.filterMap_congr others, List.filterMap_cons, own]
  rfl

theorem map_values (sound : registry.Sound) {nameOf : α → String}
    (named : registry.Named nameOf) : registry.values.map nameOf = registry.order := by
  have own : ∀ name ∈ registry.order, (registry.find? name).map nameOf = some name := by
    intro name member
    obtain ⟨value, found⟩ := mem_keys_iff.mp ((sound.same name).mp member)
    rw [found, Option.map_some, named _ ((sound.find?_eq_some_iff value).mp found)]
  rw [values, List.map_filterMap, List.filterMap_congr own, List.filterMap_some]

theorem mem_values_iff (sound : registry.Sound) (value : α) :
    value ∈ registry.values ↔ ∃ name, (name, value) ∈ registry.entries := by
  rw [values, List.mem_filterMap]
  constructor
  · rintro ⟨name, _member, found⟩
    exact ⟨name, (sound.find?_eq_some_iff value).mp found⟩
  · rintro ⟨name, member⟩
    have key : name ∈ registry.keys := List.mem_map.mpr ⟨_, member, rfl⟩
    exact ⟨name, (sound.same name).mpr key, (sound.find?_eq_some_iff value).mpr member⟩

/-- A name is found with the one value in the listing that bears it. -/
theorem find?_eq_some_iff_listed (sound : registry.Sound) {nameOf : α → String}
    (named : registry.Named nameOf) (name : String) (value : α) :
    registry.find? name = some value ↔ value ∈ registry.values ∧ nameOf value = name := by
  rw [sound.find?_eq_some_iff, sound.mem_values_iff]
  constructor
  · intro member
    exact ⟨⟨name, member⟩, named _ member⟩
  · rintro ⟨⟨key, member⟩, same⟩
    have own : key = name := (named _ member).symm.trans same
    exact own ▸ member

theorem length_order (sound : registry.Sound) : registry.order.length = registry.size := by
  have perm := (List.perm_ext_iff_of_nodup sound.orderDistinct sound.keysDistinct).mpr sound.same
  rw [perm.length_eq, keys, List.length_map, size]

end Sound

/-- Going along the order meets every entry once: none is passed over, none comes twice. -/
structure Listed (nameOf : α → String) (registry : Registry α) : Prop where
  inOrder : registry.values.map nameOf = registry.order
  every : ∀ value, value ∈ registry.values ↔ registry.find? (nameOf value) = some value
  once : registry.values.Nodup
  counted : registry.values.length = registry.size

theorem Sound.listed {nameOf : α → String} (sound : registry.Sound)
    (named : registry.Named nameOf) : registry.Listed nameOf := by
  have inOrder := sound.map_values named
  constructor
  · exact inOrder
  · intro value
    rw [sound.find?_eq_some_iff_listed named]
    exact ⟨fun member => ⟨member, rfl⟩, And.left⟩
  · have distinct := sound.orderDistinct
    rw [← inOrder] at distinct
    exact List.Nodup.of_map nameOf distinct
  · rw [← sound.length_order, ← inOrder, List.length_map]

/-! ### The registry of some items -/

/-- The items of a list, each under its own name. -/
def ofItems (items : List β) (key : β → String) (value : β → α) : Registry α where
  order := items.map key
  entries := items.map fun item => (key item, value item)

variable {items : List β} {key : β → String}

theorem find?_ofItems (items : List β) (key : β → String) (value : β → α) (name : String) :
    (ofItems items key value).find? name =
      (items.find? fun item => key item = name).map value := by
  unfold find? ofItems
  dsimp only
  induction items with
  | nil => rfl
  | cons item rest ih =>
      rw [List.map_cons, List.lookup_cons, List.find?_cons]
      by_cases same : key item = name
      · simp [same]
      · have differs : (name == key item) = false := beq_eq_false_iff_ne.mpr (Ne.symm same)
        simp only [differs, same, decide_false]
        exact ih

theorem keys_ofItems (items : List β) (key : β → String) (value : β → α) :
    (ofItems items key value).keys = items.map key := by
  rw [keys, ofItems, List.map_map]
  rfl

theorem Sound.ofItems (distinct : (items.map key).Nodup) (value : β → α) :
    (ofItems items key value).Sound := by
  refine ⟨distinct, ?_, fun name => ?_⟩ <;> rw [keys_ofItems]
  · exact distinct
  · exact Iff.rfl

theorem values_ofItems (distinct : (items.map key).Nodup) (value : β → α) :
    (ofItems items key value).values = items.map value := by
  have found : ∀ item ∈ items,
      ((ofItems items key value).find? ∘ key) item = some (value item) := by
    intro item member
    apply ((Sound.ofItems distinct value).find?_eq_some_iff _).mpr
    exact List.mem_map.mpr ⟨item, member, rfl⟩
  change (items.map key).filterMap (ofItems items key value).find? = _
  rw [List.filterMap_map, List.filterMap_congr found, ← List.filterMap_eq_map]
  rfl

theorem add_ofItems (item : β) (absent : (items.find? fun earlier => key earlier = key item) = none)
    (value : β → α) :
    (ofItems items key value).add (key item) (value item) =
      ofItems (items ++ [item]) key value := by
  have new : (ofItems items key value).find? (key item) = none := by
    rw [find?_ofItems, absent, Option.map_none]
  change Registry.mk (items.map key ++ [key item])
    ((ofItems items key value).add (key item) (value item)).entries = _
  rw [entries_add new, ofItems, ofItems, List.map_append, List.map_append]
  rfl

theorem modify_ofItems (items : List β) (key : β → String) (value : β → α) (name : String)
    (change : α → α) :
    (ofItems items key value).modify name change =
      ofItems items key fun item =>
        if key item = name then change (value item) else value item := by
  unfold modify ofItems
  rw [List.map_map]
  congr 1
  apply List.map_congr_left
  intro item _member
  by_cases same : key item = name
  · simp only [Function.comp_apply, if_pos same]
  · simp only [Function.comp_apply, if_neg same]

end Bindery.Registry
