import Bindery.Proofs.Table.Acceptance
import Bindery.Proofs.Table.Consistency

set_option autoImplicit false

/-! The names that the types of a table refer to. A type is checked when its signature is attached
and never again. It stays usable all the same, as no registration makes a name unknown. Fields are
checked when all types of a program are there, so that they may refer to types defined later. -/

namespace Bindery.Table

/-- The name that a type refers to, if any, is known. -/
def Resolves (table : Table) (type : Ty) : Prop :=
  ∀ name, type = .named name → table.knowsType name = true

/-- The type stands in the signature of a binding. -/
def InSignature (table : Table) (type : Ty) : Prop :=
  ∃ name binding types, table.bindings.find? name = some binding ∧
    binding.signature = some types ∧ type ∈ types

/-- The type is that of a field of a type definition. -/
def InField (table : Table) (type : Ty) : Prop :=
  ∃ name decl field, table.types.find? name = some decl ∧
    field ∈ decl.fields ∧ field.type.value = type

variable {table next : Table} {step : Step} {type : Ty}

/-! ### The check of a type -/

theorem checkType_eq_ok_iff (table : Table) (type : Spanned Ty) :
    table.checkType type = .ok () ↔ table.Resolves type.value := by
  unfold checkType Resolves
  cases type.value with
  | named name =>
      simp only [Ty.reference?]
      by_cases known : table.knowsType name = true
      · rw [if_pos known]
        refine ⟨fun _checked other same => ?_, fun _resolves => rfl⟩
        exact Ty.named.inj same ▸ known
      · rw [if_neg known]
        constructor
        · intro impossible
          cases impossible
        · intro resolves
          exact absurd (resolves name rfl) known
  | void | «variable» | int | float =>
      refine ⟨fun _checked name impossible => ?_, fun _resolves => rfl⟩
      cases impossible

theorem resolves_ofName (table : Table) (name : String) :
    table.Resolves (.ofName name) ↔
      table.knowsType name = true ∨ name ∈ ["int", "f64", "void"] := by
  unfold Resolves
  rcases Ty.ofName_cases name with ⟨rfl, stands⟩ | ⟨rfl, stands⟩ | ⟨rfl, stands⟩ | ⟨free, stands⟩
  · simp [stands]
  · simp [stands]
  · simp [stands]
  · rw [stands, or_iff_left free]
    refine ⟨fun resolves => resolves name rfl, fun known other same => ?_⟩
    exact Ty.named.inj same ▸ known

theorem insertSignature_succeeds_iff (table : Table) (decl : SignatureDecl) :
    (∃ next, table.insertSignature decl = .ok next) ↔
      table.bindings.contains decl.name.value = true ∧
        ∀ fragment ∈ decl.fragments, table.Resolves fragment.value := by
  simp only [← checkType_eq_ok_iff]
  rw [← forM_eq_ok_iff, Registry.contains]
  unfold insertSignature
  cases table.bindings.find? decl.name.value with
  | none => simp
  | some binding =>
      dsimp only
      cases decl.fragments.forM table.checkType with
      | error error =>
          constructor
          · rintro ⟨next, impossible⟩
            cases impossible
          · rintro ⟨_bound, impossible⟩
            cases impossible
      | ok _ => exact ⟨fun _attached => ⟨rfl, rfl⟩, fun _fine => ⟨_, rfl⟩⟩

/-! ### Names stay known -/

theorem knowsType_apply (applied : table.apply step = .ok next) {name : String}
    (known : table.knowsType name = true) : next.knowsType name = true := by
  cases step with
  | bringIn path =>
      obtain rfl := Except.ok.inj applied
      exact known
  | bind decl =>
      obtain ⟨_unbound, rfl⟩ := insertBinding_eq_ok applied
      exact known
  | sign decl =>
      obtain rfl := insertSignature_eq_ok applied
      exact known
  | define decl =>
      obtain ⟨_undefined, _reserved, _provided, rfl⟩ := insertType_eq_ok applied
      rw [knowsType, Bool.or_eq_true] at known ⊢
      refine known.imp_right fun defined => ?_
      rw [Registry.contains, Registry.find?_add]
      split
      · rfl
      · exact defined

theorem Resolves.attempt (resolves : table.Resolves type) (step : Step) :
    (table.attempt step).Resolves type := by
  rcases table.attempt_cases step with ⟨next, applied, stepped⟩ | ⟨_refused, stepped⟩
  · rw [stepped]
    exact fun name named => knowsType_apply applied (resolves name named)
  · rw [stepped]
    exact resolves

theorem Resolves.run (resolves : table.Resolves type) (steps : List Step) :
    (table.run steps).Resolves type := by
  induction steps generalizing table with
  | nil => exact resolves
  | cons step rest ih => exact ih (resolves.attempt step)

/-! ### Signatures refer to known names -/

/-- A registration adds to the types in signatures only what it has checked. -/
theorem inSignature_apply (applied : table.apply step = .ok next)
    (inside : next.InSignature type) : table.InSignature type ∨ table.Resolves type := by
  obtain ⟨name, binding, types, found, signed, member⟩ := inside
  cases step with
  | bringIn path =>
      obtain rfl := Except.ok.inj applied
      exact Or.inl ⟨name, binding, types, found, signed, member⟩
  | define decl =>
      obtain ⟨_undefined, _reserved, _provided, rfl⟩ := insertType_eq_ok applied
      exact Or.inl ⟨name, binding, types, found, signed, member⟩
  | bind decl =>
      obtain ⟨_unbound, rfl⟩ := insertBinding_eq_ok applied
      dsimp only at found
      rw [Registry.find?_add] at found
      split at found
      · -- A new binding has no signature yet.
        obtain rfl := Option.some.inj found
        cases signed
      · exact Or.inl ⟨name, binding, types, found, signed, member⟩
  | sign decl =>
      have checked := (insertSignature_succeeds_iff table decl).mp ⟨next, applied⟩
      obtain rfl := insertSignature_eq_ok applied
      dsimp only at found
      rw [Registry.find?_modify, Option.map_eq_some_iff] at found
      obtain ⟨earlier, present, rfl⟩ := found
      split at signed
      · obtain rfl := Option.some.inj signed
        obtain ⟨fragment, within, rfl⟩ := List.mem_map.mp member
        exact Or.inr (checked.2 fragment within)
      · exact Or.inl ⟨name, earlier, types, present, signed, member⟩

/-- Every type in a signature can be used. -/
def SignaturesResolve (table : Table) : Prop := ∀ type, table.InSignature type → table.Resolves type

theorem SignaturesResolve.empty (environment : Environment) :
    (Table.empty environment).SignaturesResolve := by
  rintro type ⟨name, binding, types, impossible, _signed, _member⟩
  cases impossible

theorem SignaturesResolve.attempt (closed : table.SignaturesResolve) (step : Step) :
    (table.attempt step).SignaturesResolve := by
  intro type inside
  rcases table.attempt_cases step with ⟨next, applied, stepped⟩ | ⟨_refused, stepped⟩
  · have before : table.Resolves type := by
      rw [stepped] at inside
      rcases inSignature_apply applied inside with earlier | checked
      · exact closed type earlier
      · exact checked
    exact before.attempt step
  · rw [stepped] at inside ⊢
    exact closed type inside

theorem SignaturesResolve.run (closed : table.SignaturesResolve) (steps : List Step) :
    (table.run steps).SignaturesResolve := by
  induction steps generalizing table with
  | nil => exact closed
  | cons step rest ih => exact ih (closed.attempt step)

/-! ### Programs that are accepted -/

variable {environment : Environment} {program : Program}

theorem knowsType_of_known {name : String} (known : program.Known environment name) :
    (program.table environment).knowsType name = true := by
  rw [Program.knowsType_table _ program.types rfl]
  exact (Program.knowsType_iff environment program name).mpr known

theorem fields_resolve (accepted : program.Accepted environment)
    (inside : (program.table environment).InField type) :
    (program.table environment).Resolves type := by
  obtain ⟨name, decl, field, found, member, rfl⟩ := inside
  change (Program.typeEntries program.types).find? name = some decl at found
  rw [Program.find?_typeEntries] at found
  have declared := List.mem_of_find?_eq_some found
  intro reference named
  exact knowsType_of_known (accepted.fieldsKnown decl declared field member reference named)

/-- The types in the signatures of a program's table are those that its signatures are made of. -/
theorem declared_of_inSignature (inside : (program.table environment).InSignature type) :
    ∃ decl ∈ program.signatures, ∃ fragment ∈ decl.fragments, fragment.value = type := by
  obtain ⟨name, binding, types, found, signed, member⟩ := inside
  change (Program.bindingEntries program.bindings program.signatures).find? name = some binding
    at found
  rw [Program.find?_bindingEntries, Option.map_eq_some_iff] at found
  obtain ⟨bound, _present, rfl⟩ := found
  obtain ⟨decl, last, rfl⟩ := Option.map_eq_some_iff.mp signed
  have declared : decl ∈ program.signatures :=
    (List.mem_filter.mp (List.mem_of_getLast? last)).1
  obtain ⟨fragment, within, same⟩ := List.mem_map.mp member
  exact ⟨decl, declared, fragment, within, same⟩

theorem signatures_resolve (accepted : program.Accepted environment) :
    (program.table environment).SignaturesResolve := by
  intro type inside reference named
  obtain ⟨decl, declared, fragment, within, rfl⟩ := declared_of_inSignature inside
  exact knowsType_of_known (accepted.fragmentsKnown decl declared fragment within reference named)

/-! ### All tables -/

/-- No table refers to a type that is unknown. The table of a program knows every type in its
fields and signatures. After any run of registrations a type in a signature is known, and it stays
so whatever is registered later, even if another signature has taken its place. And a name can
stand in a signature exactly if it is known or has a type of its own. -/
theorem references_known (environment : Environment) :
    (∀ program table, ofProgram environment program = .ok table →
      (∀ type, table.InField type → table.Resolves type) ∧
        ∀ type, table.InSignature type → table.Resolves type) ∧
    (∀ steps later type, ((empty environment).run steps).InSignature type →
      ((empty environment).run steps).Resolves type ∧
        (((empty environment).run steps).run later).Resolves type) ∧
    ∀ (steps : List Step) (bound : Spanned String) (name : String) (span : Span),
      ((empty environment).run steps).bindings.contains bound.value = true →
        ((∃ next, ((empty environment).run steps).insertSignature
            ⟨bound, [⟨.ofName name, span⟩]⟩ = .ok next) ↔
          ((empty environment).run steps).knowsType name = true ∨
            name ∈ ["int", "f64", "void"]) := by
  refine ⟨?_, ?_, ?_⟩
  · intro program table built
    obtain ⟨accepted, rfl⟩ := Program.ofProgram_eq_ok_iff.mp built
    exact ⟨fun type inside => fields_resolve accepted inside, signatures_resolve accepted⟩
  · intro steps later type inside
    have resolves := (SignaturesResolve.empty environment).run steps type inside
    exact ⟨resolves, resolves.run later⟩
  · intro steps bound name span contained
    rw [insertSignature_succeeds_iff, and_iff_right contained, List.forall_mem_singleton]
    exact resolves_ofName _ name

def sampleReferring : Program where
  imports := []
  bindings := [⟨⟨"x", ⟨0, 1⟩⟩, [], .integer 1 ⟨4, 5⟩, false⟩]
  signatures := [⟨⟨"x", ⟨6, 7⟩⟩, [⟨.named "Point", ⟨11, 16⟩⟩]⟩]
  types := [⟨⟨"Line", ⟨22, 26⟩⟩, [⟨⟨"start", ⟨28, 33⟩⟩, ⟨.named "Point", ⟨35, 40⟩⟩⟩], false⟩,
    ⟨⟨"Point", ⟨47, 52⟩⟩, [], false⟩]

/-- A binding of which the signature is replaced: the type in the first one stays known. -/
def sampleSigned : List Step :=
  [.bind ⟨⟨"x", ⟨0, 1⟩⟩, [], .integer 1 ⟨4, 5⟩, false⟩,
    .sign ⟨⟨"x", ⟨6, 7⟩⟩, [⟨.named "bool", ⟨11, 15⟩⟩]⟩]

theorem references_known_sample :
    (∃ table, ofProgram .prelude sampleReferring = .ok table ∧ table.InField (.named "Point") ∧
      table.InSignature (.named "Point") ∧ table.Resolves (.named "Point")) ∧
    ((empty .prelude).run sampleSigned).InSignature (.named "bool") ∧
    (((empty .prelude).run sampleSigned).run [.sign ⟨⟨"x", ⟨16, 17⟩⟩, []⟩]).Resolves
      (.named "bool") ∧
    (∃ next, ((empty .prelude).run sampleSigned).insertSignature
      ⟨⟨"x", ⟨16, 17⟩⟩, [⟨.ofName "List", ⟨21, 25⟩⟩]⟩ = .ok next) := by
  obtain ⟨ofPrograms, ofRuns, attachable⟩ := references_known .prelude
  have built : ofProgram .prelude sampleReferring = .ok (sampleReferring.table .prelude) := rfl
  have inField : (sampleReferring.table .prelude).InField (.named "Point") :=
    ⟨"Line", _, _, rfl, List.mem_cons_self, rfl⟩
  have inSignature : (sampleReferring.table .prelude).InSignature (.named "Point") :=
    ⟨"x", _, _, rfl, rfl, List.mem_cons_self⟩
  have signed : ((empty .prelude).run sampleSigned).InSignature (.named "bool") :=
    ⟨"x", _, _, rfl, rfl, List.mem_cons_self⟩
  exact ⟨⟨_, built, inField, inSignature, (ofPrograms _ _ built).2 _ inSignature⟩, signed,
    (ofRuns _ _ _ signed).2, (attachable _ _ _ _ rfl).mpr (Or.inl rfl)⟩

end Bindery.Table
