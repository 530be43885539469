import Bindery.Proofs.Registry
import Bindery.Table

set_option autoImplicit false

/-! All faults of a program, in the order in which its declarations are registered. Every check is
said on its own, by the declarations that stand before it, and not by a table. Registering a program
ends with the first of its faults, or with the table that its declarations describe. -/

namespace Bindery

/-! ### The first of several faults -/

/-- The value, unless there are faults; then the first of them. -/
def unlessFaulty {ε α : Type} (faults : List ε) (value : α) : Except ε α :=
  match faults with
  | [] => .ok value
  | error :: _ => .error error

theorem unlessFaulty_bind {ε α β : Type} (faults : List ε) (value : α)
    (next : α → Except ε β) (more : List ε) (result : β)
    (nextEq : faults = [] → next value = unlessFaulty more result) :
    (unlessFaulty faults value >>= next) = unlessFaulty (faults ++ more) result := by
  cases faults with
  | nil => exact nextEq rfl
  | cons error rest => rfl

theorem unlessFaulty_pure {ε α β : Type} (faults : List ε) (value : α) (next : α → β) :
    (unlessFaulty faults value >>= fun found => pure (next found)) =
      unlessFaulty faults (next value) := by
  cases faults with
  | nil => rfl
  | cons error rest => rfl

/-- The faults of items that are checked one after the other, each against those before it. -/
def faultsAfter {ε α : Type} (check : List α → α → List ε) : List α → List α → List ε
  | _, [] => []
  | before, item :: rest => check before item ++ faultsAfter check (before ++ [item]) rest

theorem mem_faultsAfter {ε α : Type} {check : List α → α → List ε} {before items : List α}
    {error : ε} (member : error ∈ faultsAfter check before items) :
    ∃ earlier item later, items = earlier ++ item :: later ∧
      error ∈ check (before ++ earlier) item := by
  induction items generalizing before with
  | nil => cases member
  | cons item rest ih =>
      rcases List.mem_append.mp member with own | behind
      · exact ⟨[], item, rest, rfl, by rw [List.append_nil]; exact own⟩
      · obtain ⟨earlier, found, later, split, fault⟩ := ih behind
        rw [List.append_assoc] at fault
        exact ⟨item :: earlier, found, later, by rw [split, List.cons_append], fault⟩

/-- A fold ends with the first fault if each of its steps does. -/
theorem foldlM_eq_unlessFaulty {ε α σ : Type} (step : σ → α → Except ε σ)
    (state : List α → σ) (check : List α → α → List ε)
    (stepEq : ∀ before item,
      step (state before) item = unlessFaulty (check before item) (state (before ++ [item])))
    (before items : List α) :
    items.foldlM step (state before) =
      unlessFaulty (faultsAfter check before items) (state (before ++ items)) := by
  -- The state is a function of the items so far, so the induction moves the first of the others
  -- over to them.
  induction items generalizing before with
  | nil =>
      rw [List.append_nil]
      rfl
  | cons item rest ih =>
      rw [List.foldlM_cons, stepEq, faultsAfter]
      apply unlessFaulty_bind
      intro _fine
      rw [ih, List.append_assoc]
      rfl

theorem forM_eq_unlessFaulty {ε α : Type} (act : α → Except ε Unit) (check : α → List ε)
    (actEq : ∀ item, act item = unlessFaulty (check item) ()) (items : List α) :
    items.forM act = unlessFaulty (items.flatMap check) () := by
  induction items with
  | nil => rfl
  | cons item rest ih =>
      change (act item >>= fun _ => rest.forM act) = _
      rw [actEq, List.flatMap_cons]
      exact unlessFaulty_bind _ _ _ _ _ fun _fine => ih

theorem forM_eq_ok_iff {ε α : Type} (act : α → Except ε Unit) (items : List α) :
    items.forM act = .ok () ↔ ∀ item ∈ items, act item = .ok () := by
  induction items with
  | nil => exact ⟨fun _done => List.forall_mem_nil _, fun _none => rfl⟩
  | cons item rest ih =>
      rw [List.forall_mem_cons, ← ih]
      change (act item >>= fun _ => rest.forM act) = .ok () ↔ _
      cases act item with
      | error error =>
          constructor
          · intro impossible
            cases impossible
          · rintro ⟨impossible, _others⟩
            cases impossible
      | ok _ => exact ⟨fun done => ⟨rfl, done⟩, And.right⟩

theorem faultsAfter_eq_flatMap {ε α : Type} (check : α → List ε) (before items : List α) :
    faultsAfter (fun _ => check) before items = items.flatMap check := by
  induction items generalizing before with
  | nil => rfl
  | cons item rest ih => rw [faultsAfter, ih, List.flatMap_cons]

/-! ### The faults of a program -/

namespace Program

def knowsType (environment : Environment) (types : List TypeDecl) (name : String) : Bool :=
  environment.contains name || types.any fun decl => decl.name.value = name

/-- A type definition may not have the name of one before it, nor one that is given already. -/
def typeFaults (environment : Environment) (before : List TypeDecl) (decl : TypeDecl) :
    List SemanticError :=
  match before.find? fun earlier => earlier.name.value = decl.name.value with
  | some first => [.typeExists decl.name.value decl.name.span (some first.name.span)]
  | none =>
      if ["int", "f64", "void"].contains decl.name.value ||
          environment.contains decl.name.value then
        [.typeExists decl.name.value decl.name.span none]
      else []

/-- A type that is used has to be known. -/
def useFaults (environment : Environment) (types : List TypeDecl) (type : Spanned Ty) :
    List SemanticError :=
  match type.value with
  | .named name =>
      if knowsType environment types name then [] else [.unknownType name type.span]
  | .void | .variable _ | .int | .float => []

def bindingFaults (before : List BindingDecl) (decl : BindingDecl) : List SemanticError :=
  match before.find? fun earlier => earlier.name.value = decl.name.value with
  | some first => [.bindingExists decl.name.value decl.name.span first.name.span]
  | none => []

/-- A signature has to name a binding, and then its types have to be known. -/
def signatureFaults (environment : Environment) (program : Program) (decl : SignatureDecl) :
    List SemanticError :=
  if program.bindings.any fun bound => bound.name.value = decl.name.value then
    decl.fragments.flatMap (useFaults environment program.types)
  else [.noSuchBinding decl.name.value (some decl.name.span)]

/-- All faults: those of the type definitions, of the fields in them, of the bindings and of the
signatures. -/
def faults (environment : Environment) (program : Program) : List SemanticError :=
  faultsAfter (typeFaults environment) [] program.types ++
    (program.types.flatMap TypeDecl.fields).flatMap
      (fun field => useFaults environment program.types field.type) ++
    faultsAfter bindingFaults [] program.bindings ++
    program.signatures.flatMap (signatureFaults environment program)

/-! ### When a check finds no fault -/

theorem find?_name_eq_none_iff {α : Type} (items : List α) (key : α → String) (name : String) :
    (items.find? fun item => key item = name) = none ↔ ∀ item ∈ items, key item ≠ name := by
  rw [List.find?_eq_none]
  simp only [decide_eq_true_eq, ne_eq]

theorem unless_eq_nil_iff {α : Type} (fine : Prop) [Decidable fine] (items : List α)
    (error : α) : (if fine then items else [error]) = [] ↔ fine ∧ items = [] := by
  by_cases holds : fine
  · rw [if_pos holds]
    exact ⟨fun nothing => ⟨holds, nothing⟩, And.right⟩
  · rw [if_neg holds]
    exact ⟨fun impossible => absurd impossible (List.cons_ne_nil _ _),
      fun both => absurd both.1 holds⟩

theorem typeFaults_eq_nil_iff (environment : Environment) (before : List TypeDecl)
    (decl : TypeDecl) :
    typeFaults environment before decl = [] ↔
      (∀ earlier ∈ before, earlier.name.value ≠ decl.name.value) ∧
        decl.name.value ∉ ["int", "f64", "void"] ∧ decl.name.value ∉ environment.names := by
  rw [← find?_name_eq_none_iff before fun earlier => earlier.name.value]
  unfold typeFaults
  cases before.find? fun earlier => earlier.name.value = decl.name.value with
  | some first =>
      constructor
      · intro impossible
        cases impossible
      · intro impossible
        cases impossible.1
  | none =>
      have provided : (["int", "f64", "void"].contains decl.name.value ||
          environment.contains decl.name.value) = true ↔
            decl.name.value ∈ ["int", "f64", "void"] ∨ decl.name.value ∈ environment.names := by
        unfold Environment.contains
        rw [Bool.or_eq_true, List.contains_iff_mem, List.contains_iff_mem]
      rw [← ite_not, unless_eq_nil_iff, provided, not_or]
      exact ⟨fun fresh => ⟨rfl, fresh.1⟩, fun fresh => ⟨fresh.2, rfl⟩⟩

/-- Items that are checked against those before them are free of faults if their names are distinct
and each is fine by itself. -/
theorem faultsAfter_eq_nil_iff {ε α : Type} (check : List α → α → List ε) (key : α → String)
    (Fine : α → Prop)
    (checkIff : ∀ before item,
      check before item = [] ↔ (∀ earlier ∈ before, key earlier ≠ key item) ∧ Fine item)
    (before items : List α) :
    faultsAfter check before items = [] ↔
      (∀ item ∈ items, ∀ earlier ∈ before, key earlier ≠ key item) ∧
        (items.map key).Nodup ∧ ∀ item ∈ items, Fine item := by
  induction items generalizing before with
  | nil => simp [faultsAfter]
  | cons item rest ih =>
      rw [faultsAfter, List.append_eq_nil_iff, checkIff, ih, List.map_cons, List.nodup_cons]
      simp only [List.forall_mem_cons, List.mem_append, List.mem_singleton, List.mem_map]
      constructor
      · rintro ⟨⟨new, fine⟩, apart, distinct, allFine⟩
        refine ⟨⟨new, ?_⟩, ⟨?_, distinct⟩, fine, allFine⟩
        · intro later member earlier present
          exact apart later member earlier (Or.inl present)
        · rintro ⟨later, member, same⟩
          exact apart later member item (Or.inr rfl) same.symm
      · rintro ⟨⟨new, apart⟩, ⟨absent, distinct⟩, fine, allFine⟩
        refine ⟨⟨new, fine⟩, ?_, distinct, allFine⟩
        rintro later member earlier (present | same)
        · exact apart later member earlier present
        · intro equal
          exact absent ⟨later, member, by rw [← equal, same]⟩

theorem faultsAfter_nil_eq_nil_iff {ε α : Type} (check : List α → α → List ε) (key : α → String)
    (Fine : α → Prop)
    (checkIff : ∀ before item,
      check before item = [] ↔ (∀ earlier ∈ before, key earlier ≠ key item) ∧ Fine item)
    (items : List α) :
    faultsAfter check [] items = [] ↔ (items.map key).Nodup ∧ ∀ item ∈ items, Fine item := by
  rw [faultsAfter_eq_nil_iff check key Fine checkIff]
  apply and_iff_right
  intro _item _member
  exact List.forall_mem_nil _

/-! ### The table that a program describes -/

def lastSignature? (signatures : List SignatureDecl) (name : String) : Option (List Ty) :=
  ((signatures.filter fun decl => decl.name.value = name).getLast?).map fun decl =>
    decl.fragments.map Spanned.value

/-- A binding as it is declared, with the last of these signatures that names it. -/
def signedBinding (signatures : List SignatureDecl) (decl : BindingDecl) : Binding where
  name := decl.name.value
  nameSpan := decl.name.span
  parameters := decl.parameters
  body := decl.body
  signature := lastSignature? signatures decl.name.value
  exported := decl.exported

def bindingEntries (bindings : List BindingDecl) (signatures : List SignatureDecl) :
    Registry Binding :=
  .ofItems bindings (fun decl => decl.name.value) (signedBinding signatures)

def typeEntries (types : List TypeDecl) : Registry TypeDecl :=
  .ofItems types (fun decl => decl.name.value) id

def table (environment : Environment) (program : Program) : Table where
  imports := program.imports.map Spanned.value
  bindings := bindingEntries program.bindings program.signatures
  types := typeEntries program.types
  environment := environment

/-! ### What is found in the entries -/

theorem values_typeEntries {types : List TypeDecl}
    (distinct : (types.map fun decl => decl.name.value).Nodup) :
    (typeEntries types).values = types := by
  rw [typeEntries, Registry.values_ofItems distinct, List.map_id]

theorem values_bindingEntries {bindings : List BindingDecl}
    (distinct : (bindings.map fun decl => decl.name.value).Nodup)
    (signatures : List SignatureDecl) :
    (bindingEntries bindings signatures).values = bindings.map (signedBinding signatures) :=
  Registry.values_ofItems distinct _

theorem find?_typeEntries (types : List TypeDecl) (name : String) :
    (typeEntries types).find? name = types.find? fun decl => decl.name.value = name := by
  rw [typeEntries, Registry.find?_ofItems, Option.map_id]
  rfl

theorem find?_bindingEntries (bindings : List BindingDecl) (signatures : List SignatureDecl)
    (name : String) :
    (bindingEntries bindings signatures).find? name =
      (bindings.find? fun decl => decl.name.value = name).map (signedBinding signatures) :=
  Registry.find?_ofItems bindings _ _ name

theorem knowsType_table (table : Table) (types : List TypeDecl)
    (typesEq : table.types = typeEntries types) (name : String) :
    table.knowsType name = knowsType table.environment types name := by
  unfold Table.knowsType knowsType Registry.contains
  rw [typesEq, find?_typeEntries, List.isSome_find?]

/-! ### One step of each kind -/

theorem checkType_eq (table : Table) (types : List TypeDecl)
    (typesEq : table.types = typeEntries types) (type : Spanned Ty) :
    table.checkType type = unlessFaulty (useFaults table.environment types type) () := by
  unfold Table.checkType useFaults
  cases type.value with
  | named name =>
      simp only [Ty.reference?]
      rw [knowsType_table table types typesEq]
      by_cases known : knowsType table.environment types name = true
      · rw [if_pos known, if_pos known]
        rfl
      · rw [if_neg known, if_neg known]
        rfl
  | void => rfl
  | «variable» name => rfl
  | int => rfl
  | float => rfl

theorem isNone_reference?_ofName (name : String) :
    (Ty.ofName name).reference?.isNone = ["int", "f64", "void"].contains name := by
  rcases Ty.ofName_cases name with ⟨rfl, -⟩ | ⟨rfl, -⟩ | ⟨rfl, -⟩ | ⟨free, stands⟩
  · rfl
  · rfl
  · rfl
  · rw [stands, Bool.eq_false_iff.mpr (mt List.contains_iff_mem.mp free)]
    rfl

/-- The names that no definition can have, whatever is defined before it. -/
theorem provided_iff (environment : Environment) (name : String) :
    ((Ty.ofName name).reference?.isNone || environment.contains name) = true ↔
      name ∈ ["int", "f64", "void"] ∨ name ∈ environment.names := by
  rw [isNone_reference?_ofName, Environment.contains, Bool.or_eq_true, List.contains_iff_mem,
    List.contains_iff_mem]

def typed (environment : Environment) (types : List TypeDecl) : Table where
  imports := []
  bindings := .empty
  types := typeEntries types
  environment := environment

theorem insertType_eq (environment : Environment) (before : List TypeDecl) (decl : TypeDecl) :
    (typed environment before).insertType decl =
      unlessFaulty (typeFaults environment before decl)
        (typed environment (before ++ [decl])) := by
  unfold Table.insertType typeFaults
  simp only [typed, find?_typeEntries, isNone_reference?_ofName]
  cases absent : before.find? fun earlier => earlier.name.value = decl.name.value with
  | some first => rfl
  | none =>
      have added : (typeEntries before).add decl.name.value decl = typeEntries (before ++ [decl]) :=
        Registry.add_ofItems decl absent id
      by_cases provided : (["int", "f64", "void"].contains decl.name.value ||
          environment.contains decl.name.value) = true
      · rw [if_pos provided, if_pos provided]
        rfl
      · rw [if_neg provided, if_neg provided]
        rw [added]
        rfl

def signed (environment : Environment) (program : Program) (bindings : List BindingDecl)
    (signatures : List SignatureDecl) : Table :=
  { program.table environment with bindings := bindingEntries bindings signatures }

theorem insertBinding_eq (environment : Environment) (program : Program)
    (before : List BindingDecl) (decl : BindingDecl) :
    (signed environment program before []).insertBinding decl =
      unlessFaulty (bindingFaults before decl)
        (signed environment program (before ++ [decl]) []) := by
  unfold Table.insertBinding bindingFaults
  simp only [signed, find?_bindingEntries]
  cases absent : before.find? fun earlier => earlier.name.value = decl.name.value with
  | some first => rfl
  | none =>
      have added : (bindingEntries before []).add decl.name.value (.ofDecl decl) =
          bindingEntries (before ++ [decl]) [] :=
        Registry.add_ofItems decl absent (signedBinding [])
      rw [Option.map_none, added]
      rfl

theorem lastSignature?_append (before : List SignatureDecl) (decl : SignatureDecl)
    (name : String) :
    lastSignature? (before ++ [decl]) name =
      if decl.name.value = name then some (decl.fragments.map Spanned.value)
      else lastSignature? before name := by
  unfold lastSignature?
  rw [List.filter_append]
  by_cases same : decl.name.value = name
  · simp [same]
  · simp [same]

/-- A later signature of a name takes the place of an earlier one. -/
theorem modify_bindingEntries (bindings : List BindingDecl) (before : List SignatureDecl)
    (decl : SignatureDecl) :
    (bindingEntries bindings before).modify decl.name.value
        (fun binding =>
          { binding with signature := some (decl.fragments.map Spanned.value) }) =
      bindingEntries bindings (before ++ [decl]) := by
  rw [bindingEntries, Registry.modify_ofItems, bindingEntries]
  congr 1
  funext bound
  simp only [signedBinding, lastSignature?_append]
  by_cases same : bound.name.value = decl.name.value
  · rw [if_pos same, if_pos same.symm]
  · rw [if_neg same, if_neg (Ne.symm same)]

theorem insertSignature_eq (environment : Environment) (program : Program)
    (before : List SignatureDecl) (decl : SignatureDecl) :
    (signed environment program program.bindings before).insertSignature decl =
      unlessFaulty (signatureFaults environment program decl)
        (signed environment program program.bindings (before ++ [decl])) := by
  unfold Table.insertSignature signatureFaults
  have found : (signed environment program program.bindings before).bindings.find?
      decl.name.value =
        (program.bindings.find? fun bound => bound.name.value = decl.name.value).map
          (signedBinding before) := find?_bindingEntries _ _ _
  rw [found, ← List.isSome_find?]
  cases program.bindings.find? fun bound => bound.name.value = decl.name.value with
  | none => rfl
  | some bound =>
      have checked := forM_eq_unlessFaulty
        (signed environment program program.bindings before).checkType _
        (checkType_eq _ program.types rfl) decl.fragments
      simp only [Option.map_some, Option.isSome_some, if_true]
      rw [checked]
      rw [unlessFaulty_pure]
      change unlessFaulty _ { signed environment program program.bindings before with
        bindings := (bindingEntries program.bindings before).modify decl.name.value
          fun binding =>
            { binding with signature := some (decl.fragments.map Spanned.value) } } = _
      rw [modify_bindingEntries]
      rfl

/-! ### The whole program -/

theorem checkFields_eq (environment : Environment) {types : List TypeDecl}
    (distinct : (types.map fun decl => decl.name.value).Nodup) :
    (typed environment types).checkFields =
      unlessFaulty
        ((types.flatMap TypeDecl.fields).flatMap
          (fun field => useFaults environment types field.type)) () := by
  unfold Table.checkFields
  change ((typeEntries types).values.flatMap TypeDecl.fields).forM _ = _
  rw [values_typeEntries distinct]
  apply forM_eq_unlessFaulty
  intro field
  exact checkType_eq (typed environment types) types rfl field.type

theorem insertImports_eq (table : Table) (imports : List (Spanned String)) :
    imports.foldl (fun table path => table.insertImport path.value) table =
      { table with imports := table.imports ++ imports.map Spanned.value } := by
  induction imports generalizing table with
  | nil => rw [List.foldl_nil, List.map_nil, List.append_nil]
  | cons path rest ih =>
      rw [List.foldl_cons, ih, Table.insertImport, List.map_cons, List.append_assoc]
      rfl

/-- Registering a program ends with its first fault, or with the table it describes. -/
theorem ofProgram_eq_unlessFaulty (environment : Environment) (program : Program) :
    Table.ofProgram environment program =
      unlessFaulty (program.faults environment) (program.table environment) := by
  have types := foldlM_eq_unlessFaulty Table.insertType (typed environment)
    (typeFaults environment) (insertType_eq environment) [] program.types
  have bindings := foldlM_eq_unlessFaulty Table.insertBinding
    (fun before => signed environment program before []) bindingFaults
    (insertBinding_eq environment program) [] program.bindings
  have signatures := foldlM_eq_unlessFaulty Table.insertSignature
    (signed environment program program.bindings)
    (fun _ => signatureFaults environment program)
    (insertSignature_eq environment program) [] program.signatures
  rw [faultsAfter_eq_flatMap] at signatures
  unfold Table.ofProgram faults
  rw [List.append_assoc, List.append_assoc]
  have start : Table.empty environment = typed environment [] := rfl
  rw [start, types]
  apply unlessFaulty_bind
  intro fine
  have distinct :=
    (faultsAfter_nil_eq_nil_iff _ _ _ (typeFaults_eq_nil_iff environment) _).mp fine
  simp only [List.nil_append]
  rw [checkFields_eq environment distinct.1]
  apply unlessFaulty_bind
  intro _fine
  rw [insertImports_eq]
  have imported : { typed environment program.types with
      imports := (typed environment program.types).imports ++
        program.imports.map Spanned.value } = signed environment program [] [] := rfl
  rw [imported, bindings]
  exact unlessFaulty_bind _ _ _ _ _ fun _fine => signatures

end Program

end Bindery
