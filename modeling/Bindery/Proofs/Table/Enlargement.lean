import Bindery.Proofs.Table.Acceptance

set_option autoImplicit false

/-! Programs in a larger environment. More names are known there, and fewer are free to be defined.
So a program keeps its table unless it defines a type that is provided now, and the first such
definition is its error. A program that is accepted in the larger environment only uses a name that
the smaller one lacks. -/

namespace Bindery

/-- A check of items one after the other, continued with more of them. -/
theorem faultsAfter_append {ε α : Type} (check : List α → α → List ε) (front items rest : List α) :
    faultsAfter check front (items ++ rest) =
      faultsAfter check front items ++ faultsAfter check (front ++ items) rest := by
  induction items generalizing front with
  | nil => rw [List.append_nil]; rfl
  | cons item items ih =>
      rw [List.cons_append, faultsAfter, faultsAfter, ih, List.append_assoc, List.append_assoc]
      rfl

/-- Of the items with a property there is a first. -/
theorem exists_first {α : Type} {items : List α} {property : α → Prop} [DecidablePred property]
    (present : ∃ item ∈ items, property item) :
    ∃ before first after, items = before ++ first :: after ∧
      (∀ item ∈ before, ¬ property item) ∧ property first := by
  have isFound : (items.find? fun item => decide (property item)).isSome = true := by
    rw [List.find?_isSome]
    simpa only [decide_eq_true_eq] using present
  obtain ⟨first, found⟩ := Option.isSome_iff_exists.mp isFound
  obtain ⟨holds, before, after, split, fails⟩ := List.find?_eq_some_iff_append.mp found
  refine ⟨before, first, after, split, fun item member => ?_, of_decide_eq_true holds⟩
  have failed := fails item member
  rw [Bool.not_eq_true', decide_eq_false_iff_not] at failed
  exact failed

namespace Program

variable {small large : Environment} {program : Program}

theorem Known.enlarged {name : String} (known : program.Known small name)
    (grows : small.names ⊆ large.names) : program.Known large name :=
  known.imp_left fun provided => grows provided

theorem Accepted.enlarged (accepted : program.Accepted small) (grows : small.names ⊆ large.names)
    (new : ∀ decl ∈ program.types, decl.name.value ∉ large.names) : program.Accepted large where
  typesDistinct := accepted.typesDistinct
  typesNew decl member := ⟨(accepted.typesNew decl member).1, new decl member⟩
  fieldsKnown decl member field inside name named :=
    (accepted.fieldsKnown decl member field inside name named).enlarged grows
  bindingsDistinct := accepted.bindingsDistinct
  signaturesBound := accepted.signaturesBound
  fragmentsKnown decl member fragment inside name named :=
    (accepted.fragmentsKnown decl member fragment inside name named).enlarged grows

/-! ### Definitions that clash -/

theorem typeFaults_of_provided {environment : Environment} {before : List TypeDecl}
    {decl : TypeDecl} (first : ∀ earlier ∈ before, earlier.name.value ≠ decl.name.value)
    (provided : decl.name.value ∈ environment.names) :
    typeFaults environment before decl = [.typeExists decl.name.value decl.name.span none] := by
  have absent := (find?_name_eq_none_iff before (fun earlier => earlier.name.value) _).mpr first
  have given : (["int", "f64", "void"].contains decl.name.value ||
      environment.contains decl.name.value) = true := by
    rw [Bool.or_eq_true]
    exact Or.inr (List.contains_iff_mem.mpr provided)
  rw [typeFaults, absent]
  dsimp only
  rw [if_pos given]

/-- If nothing else is wrong with the definitions, the first fault is the first definition that the
environment provides. -/
theorem head?_faults_of_provided {environment : Environment} {before after : List TypeDecl}
    {first : TypeDecl} (split : program.types = before ++ first :: after)
    (distinct : (program.types.map fun decl => decl.name.value).Nodup)
    (unreserved : ∀ decl ∈ program.types, decl.name.value ∉ ["int", "f64", "void"])
    (new : ∀ decl ∈ before, decl.name.value ∉ environment.names)
    (provided : first.name.value ∈ environment.names) :
    (program.faults environment).head? =
      some (.typeExists first.name.value first.name.span none) := by
  rw [split, List.map_append, List.map_cons, List.nodup_append] at distinct
  have earlierFine : faultsAfter (typeFaults environment) [] before = [] := by
    apply (faultsAfter_nil_eq_nil_iff _ _ _ (typeFaults_eq_nil_iff environment) before).mpr
    refine ⟨distinct.1, fun decl member => ⟨unreserved decl ?_, new decl member⟩⟩
    rw [split]
    exact List.mem_append_left _ member
  have apart : ∀ earlier ∈ before, earlier.name.value ≠ first.name.value :=
    fun earlier member => distinct.2.2 _ (List.mem_map_of_mem member) _ List.mem_cons_self
  rw [faults, split, faultsAfter_append, earlierFine, List.nil_append, faultsAfter,
    List.nil_append, typeFaults_of_provided apart provided]
  rfl

/-! ### Names that are lacking -/

theorem eq_unknownType_of_mem_useFaults {environment : Environment} {type : Spanned Ty}
    {error : SemanticError} (fault : error ∈ useFaults environment program.types type) :
    ∃ name, type.value = .named name ∧ ¬ program.Known environment name ∧
      error = .unknownType name type.span := by
  unfold useFaults at fault
  split at fault
  · rename_i name named
    split at fault
    · cases fault
    · rename_i unknown
      rw [knowsType_iff] at unknown
      exact ⟨name, named, unknown, List.mem_singleton.mp fault⟩
  · cases fault
  · cases fault
  · cases fault
  · cases fault

/-- The error is about a name that only the larger of two environments provides. -/
def LacksName (small large : Environment) (error : SemanticError) : Prop :=
  ∃ name span, error = .unknownType name span ∧ name ∈ large.names ∧ name ∉ small.names

theorem lacksName_of_mem_useFaults {type : Spanned Ty} {error : SemanticError}
    (fault : error ∈ useFaults small program.types type)
    (known : ∀ name, type.value = .named name → program.Known large name) :
    LacksName small large error := by
  obtain ⟨name, named, unknown, rfl⟩ := eq_unknownType_of_mem_useFaults fault
  refine ⟨name, type.span, rfl, ?_, fun provided => unknown (Or.inl provided)⟩
  exact (known name named).resolve_right fun defined => unknown (Or.inr defined)

/-- All that can be wrong in the smaller environment is that it lacks names. -/
theorem lacksName_of_mem_faults (grows : small.names ⊆ large.names)
    (accepted : program.Accepted large) {error : SemanticError}
    (fault : error ∈ program.faults small) : LacksName small large error := by
  have types : faultsAfter (typeFaults small) [] program.types = [] := by
    apply (faultsAfter_nil_eq_nil_iff _ _ _ (typeFaults_eq_nil_iff small) _).mpr
    refine ⟨accepted.typesDistinct, ?_⟩
    intro decl member
    have new := accepted.typesNew decl member
    exact ⟨new.1, fun provided => new.2 (grows provided)⟩
  have bindings : faultsAfter bindingFaults [] program.bindings = [] :=
    (faultsAfter_nil_eq_nil_iff _ _ _ bindingFaults_eq_nil_iff _).mpr
      ⟨accepted.bindingsDistinct, fun _decl _member => trivial⟩
  rw [faults, types, bindings, List.nil_append, List.append_nil, List.mem_append,
    List.mem_flatMap, List.mem_flatMap] at fault
  rcases fault with ⟨field, within, unknown⟩ | ⟨decl, declared, wrong⟩
  · obtain ⟨decl, declared, inside⟩ := List.mem_flatMap.mp within
    exact lacksName_of_mem_useFaults unknown (accepted.fieldsKnown decl declared field inside)
  · have bound : (program.bindings.any fun bound => bound.name.value = decl.name.value) = true := by
      rw [List.any_eq_true]
      simpa only [decide_eq_true_eq] using accepted.signaturesBound decl declared
    rw [signatureFaults, if_pos bound] at wrong
    obtain ⟨fragment, inside, unknown⟩ := List.mem_flatMap.mp wrong
    exact lacksName_of_mem_useFaults unknown
      (accepted.fragmentsKnown decl declared fragment inside)

/-! ### The three outcomes -/

/-- What becomes of a program in a larger environment. If it had a table and defines no name that is
provided now, the table stays as it was. If it had a table and defines such a name, the first
definition that does is the error. And if it had no table but has one now, then it had used a name
that was not provided before. -/
theorem ofProgram_enlarged (small large : Environment) (program : Program)
    (grows : small.names ⊆ large.names) :
    (∀ table, Table.ofProgram small program = .ok table →
      (∀ decl ∈ program.types, decl.name.value ∉ large.names) →
        ∃ other, Table.ofProgram large program = .ok other ∧ other.imports = table.imports ∧
          other.bindings = table.bindings ∧ other.types = table.types) ∧
    (∀ table, Table.ofProgram small program = .ok table →
      (∃ decl ∈ program.types, decl.name.value ∈ large.names) →
        ∃ before first after, program.types = before ++ first :: after ∧
          (∀ decl ∈ before, decl.name.value ∉ large.names) ∧ first.name.value ∈ large.names ∧
          Table.ofProgram large program =
            .error (.typeExists first.name.value first.name.span none)) ∧
    ∀ table error, Table.ofProgram large program = .ok table →
      Table.ofProgram small program = .error error →
        ∃ name span, error = .unknownType name span ∧ name ∈ large.names ∧
          name ∉ small.names := by
  refine ⟨?_, ?_, ?_⟩
  · intro table built new
    obtain ⟨accepted, rfl⟩ := ofProgram_eq_ok_iff.mp built
    exact ⟨_, ofProgram_of_accepted large program (accepted.enlarged grows new), rfl, rfl, rfl⟩
  · intro table built clashes
    obtain ⟨accepted, _tableEq⟩ := ofProgram_eq_ok_iff.mp built
    obtain ⟨before, first, after, split, new, provided⟩ := exists_first clashes
    refine ⟨before, first, after, split, new, provided, ofProgram_eq_error_iff.mpr ?_⟩
    exact head?_faults_of_provided split accepted.typesDistinct
      (fun decl member => (accepted.typesNew decl member).1) new provided
  · intro table error built refused
    obtain ⟨accepted, _tableEq⟩ := ofProgram_eq_ok_iff.mp built
    exact lacksName_of_mem_faults grows accepted
      (List.mem_of_head? (ofProgram_eq_error_iff.mp refused))

def sampleMeasuring : Program where
  imports := [⟨"std::io", ⟨7, 14⟩⟩]
  bindings := [⟨⟨"origin", ⟨35, 41⟩⟩, [], .integer 0 ⟨44, 45⟩, true⟩]
  signatures := [⟨⟨"origin", ⟨46, 52⟩⟩, [⟨.named "Point", ⟨56, 61⟩⟩, ⟨.int, ⟨65, 68⟩⟩]⟩]
  types := [⟨⟨"Point", ⟨20, 25⟩⟩, [⟨⟨"x", ⟨27, 28⟩⟩, ⟨.float, ⟨30, 33⟩⟩⟩], false⟩]

def sampleDefining : Program :=
  { empty with
    types := [⟨⟨"Point", ⟨5, 10⟩⟩, [], false⟩, ⟨⟨"Handle", ⟨19, 25⟩⟩, [], false⟩] }

def sampleUsing : Program :=
  { empty with
    bindings := [⟨⟨"x", ⟨0, 1⟩⟩, [], .integer 1 ⟨4, 5⟩, false⟩]
    signatures := [⟨⟨"x", ⟨6, 7⟩⟩, [⟨.int, ⟨11, 14⟩⟩, ⟨.named "Handle", ⟨18, 24⟩⟩]⟩] }

theorem ofProgram_enlarged_sample :
    let small := Environment.prelude
    let large := small.insert "Handle"
    small.names ⊆ large.names ∧
      (∃ table, Table.ofProgram small sampleMeasuring = .ok table ∧
        (∀ decl ∈ sampleMeasuring.types, decl.name.value ∉ large.names) ∧
          ∃ other, Table.ofProgram large sampleMeasuring = .ok other ∧
            other.imports = table.imports ∧ other.bindings = table.bindings ∧
            other.types = table.types) ∧
      (∃ table, Table.ofProgram small sampleDefining = .ok table ∧
        ∃ before first after, sampleDefining.types = before ++ first :: after ∧
          first.name.value ∈ large.names ∧
          Table.ofProgram large sampleDefining =
            .error (.typeExists first.name.value first.name.span none)) ∧
      ∃ table error, Table.ofProgram large sampleUsing = .ok table ∧
        Table.ofProgram small sampleUsing = .error error ∧
        ∃ name span, error = .unknownType name span ∧ name ∈ large.names ∧
          name ∉ small.names := by
  have grows : Environment.prelude.names ⊆ (Environment.prelude.insert "Handle").names := by
    decide
  refine ⟨grows, ?_, ?_, ?_⟩
  · have new : ∀ decl ∈ sampleMeasuring.types,
        decl.name.value ∉ (Environment.prelude.insert "Handle").names := by decide
    exact ⟨_, rfl, new, (ofProgram_enlarged _ _ sampleMeasuring grows).1 _ rfl new⟩
  · have clashes : ∃ decl ∈ sampleDefining.types,
        decl.name.value ∈ (Environment.prelude.insert "Handle").names := by decide
    obtain ⟨before, first, after, split, _new, provided, refused⟩ :=
      (ofProgram_enlarged _ _ sampleDefining grows).2.1 _ rfl clashes
    exact ⟨_, rfl, before, first, after, split, provided, refused⟩
  · exact ⟨_, _, rfl, rfl, (ofProgram_enlarged _ _ sampleUsing grows).2.2 _ _ rfl rfl⟩

end Program

end Bindery
