import Bindery.Proofs.Table.Faults

set_option autoImplicit false

/-! What a table answers after any run of registrations, read off the log of the run. The first
definition of a name stays, refused registrations leave no trace, and a binding has the last of the
signatures that were accepted for it. Whether a registration is accepted is said by the log before
it, and not by a table. -/

namespace Bindery.Table

/-! ### Logs -/

def Step.import? : Step → Option String
  | .bringIn path => some path
  | .bind _ | .sign _ | .define _ => none

def Step.binding? (name : String) : Step → Option BindingDecl
  | .bind decl => if decl.name.value = name then some decl else none
  | .bringIn _ | .sign _ | .define _ => none

def Step.type? (name : String) : Step → Option TypeDecl
  | .define decl => if decl.name.value = name then some decl else none
  | .bringIn _ | .bind _ | .sign _ => none

def Step.signature? (name : String) : Step → Option (List Ty)
  | .sign decl => if decl.name.value = name then some (decl.fragments.map Spanned.value) else none
  | .bringIn _ | .bind _ | .define _ => none

def firstBinding? (log : List Step) (name : String) : Option BindingDecl :=
  log.findSome? (Step.binding? name)

def firstType? (log : List Step) (name : String) : Option TypeDecl :=
  log.findSome? (Step.type? name)

/-- Whether a type name is given before any definition. -/
def isProvided (environment : Environment) (name : String) : Bool :=
  ["int", "f64", "void"].contains name || environment.names.contains name

/-- The definition of a type name: the first in the log, unless the name is given already. -/
def definition? (environment : Environment) (log : List Step) (name : String) :
    Option TypeDecl :=
  if isProvided environment name then none else firstType? log name

/-- Whether a type can be used after a log: only one that is referred to by name may be missing. -/
def isUsable (environment : Environment) (log : List Step) : Ty → Bool
  | .named name => environment.names.contains name || (definition? environment log name).isSome
  | .void | .variable _ | .int | .float => true

/-- Whether a registration is accepted after a log. -/
def accepts (environment : Environment) (log : List Step) : Step → Bool
  | .bringIn _ => true
  | .bind decl => (firstBinding? log decl.name.value).isNone
  | .sign decl =>
      (firstBinding? log decl.name.value).isSome &&
        decl.fragments.all fun fragment => isUsable environment log fragment.value
  | .define decl =>
      (firstType? log decl.name.value).isNone && !isProvided environment decl.name.value

/-- The registrations that are accepted, each judged by all that stand before it. -/
def acceptedAfter (environment : Environment) : List Step → List Step → List Step
  | _, [] => []
  | before, step :: rest =>
      (if accepts environment before step then [step] else []) ++
        acceptedAfter environment (before ++ [step]) rest

def accepted (environment : Environment) (log : List Step) : List Step :=
  acceptedAfter environment [] log

def lastSignature? (environment : Environment) (log : List Step) (name : String) :
    Option (List Ty) :=
  ((accepted environment log).filterMap (Step.signature? name)).getLast?

/-- The binding that a declaration makes, once it has a signature or while it has none. -/
def boundWith (signature : Option (List Ty)) (decl : BindingDecl) : Binding where
  name := decl.name.value
  nameSpan := decl.name.span
  parameters := decl.parameters
  body := decl.body
  signature := signature
  exported := decl.exported

/-- What a name is bound to: its first binding, with its last accepted signature. -/
def bound? (environment : Environment) (log : List Step) (name : String) : Option Binding :=
  (firstBinding? log name).map (boundWith (lastSignature? environment log name))

/-! ### One more registration in a log -/

section Grow

variable (environment : Environment) (log : List Step) (step : Step) (name : String)

theorem firstBinding?_concat :
    firstBinding? (log ++ [step]) name = (firstBinding? log name).or (step.binding? name) := by
  rw [firstBinding?, List.findSome?_append, List.findSome?_singleton]
  rfl

theorem firstType?_concat :
    firstType? (log ++ [step]) name = (firstType? log name).or (step.type? name) := by
  rw [firstType?, List.findSome?_append, List.findSome?_singleton]
  rfl

theorem acceptedAfter_concat (before : List Step) :
    acceptedAfter environment before (log ++ [step]) =
      acceptedAfter environment before log ++
        if accepts environment (before ++ log) step then [step] else [] := by
  induction log generalizing before with
  | nil =>
      rw [List.nil_append, acceptedAfter, acceptedAfter, acceptedAfter, List.append_nil,
        List.append_nil, List.nil_append]
  | cons first rest ih =>
      rw [List.cons_append, acceptedAfter, ih, acceptedAfter, List.append_assoc,
        List.append_assoc]
      rfl

theorem lastSignature?_concat :
    lastSignature? environment (log ++ [step]) name =
      (if accepts environment log step then step.signature? name else none).or
        (lastSignature? environment log name) := by
  unfold lastSignature? accepted
  rw [acceptedAfter_concat, List.filterMap_append, List.getLast?_append, List.nil_append]
  congr 1
  by_cases fine : accepts environment log step = true
  · rw [if_pos fine, if_pos fine, List.filterMap_cons, List.filterMap_nil]
    cases step.signature? name <;> rfl
  · rw [if_neg fine, if_neg fine]
    rfl

/-- A name stays bound to the same as long as nothing is registered for it. -/
theorem bound?_concat (unbinding : step.binding? name = none)
    (unsigning : step.signature? name = none) :
    bound? environment (log ++ [step]) name = bound? environment log name := by
  rw [bound?, bound?, firstBinding?_concat, lastSignature?_concat, unbinding, unsigning,
    Option.or_none, ite_self, Option.none_or]

theorem definition?_concat (undefining : step.type? name = none) :
    definition? environment (log ++ [step]) name = definition? environment log name := by
  rw [definition?, definition?, firstType?_concat, undefining, Option.or_none]

end Grow

theorem firstBinding?_of_append (before after : List Step) (name : String)
    (unbound : firstBinding? (before ++ after) name = none) :
    firstBinding? before name = none := by
  rw [firstBinding?, List.findSome?_append, Option.or_eq_none_iff] at unbound
  exact unbound.1

/-- A signature is accepted for bound names only. -/
theorem signature?_of_accepts {environment : Environment} {log : List Step} {step : Step}
    {name : String} (fine : accepts environment log step = true)
    (unbound : firstBinding? log name = none) : step.signature? name = none := by
  cases step with
  | sign decl =>
      rw [accepts, Bool.and_eq_true] at fine
      have differs : decl.name.value ≠ name := by
        intro same
        rw [same, unbound] at fine
        cases fine.1
      exact if_neg differs
  | bringIn path => rfl
  | bind decl => rfl
  | define decl => rfl

theorem signatures_of_unbound (environment : Environment) (before log : List Step)
    (name : String) (unbound : firstBinding? (before ++ log) name = none) :
    (acceptedAfter environment before log).filterMap (Step.signature? name) = [] := by
  induction log generalizing before with
  | nil => rfl
  | cons step rest ih =>
      have earlier := firstBinding?_of_append before (step :: rest) name unbound
      have later := ih (before ++ [step]) (by rw [List.append_assoc]; exact unbound)
      rw [acceptedAfter, List.filterMap_append, later, List.append_nil]
      by_cases fine : accepts environment before step = true
      · rw [if_pos fine, List.filterMap_cons, signature?_of_accepts fine earlier]
        rfl
      · rw [if_neg fine]
        rfl

theorem lastSignature?_of_unbound (environment : Environment) (log : List Step) (name : String)
    (unbound : firstBinding? log name = none) : lastSignature? environment log name = none := by
  rw [lastSignature?, accepted, signatures_of_unbound environment [] log name unbound]
  rfl

/-! ### Tables that agree with a log -/

structure Describes (environment : Environment) (log : List Step) (table : Table) : Prop where
  environmentEq : table.environment = environment
  importsEq : table.imports = log.filterMap Step.import?
  bindingEq : ∀ name, table.bindings.find? name = bound? environment log name
  typeEq : ∀ name, table.types.find? name = definition? environment log name

namespace Describes

variable {environment : Environment} {log : List Step} {table : Table}

theorem empty (environment : Environment) : Describes environment [] (.empty environment) where
  environmentEq := rfl
  importsEq := rfl
  bindingEq _name := rfl
  typeEq _name := (ite_self none).symm

theorem knowsType_eq (described : Describes environment log table) (name : String) :
    table.knowsType name =
      (environment.names.contains name || (definition? environment log name).isSome) := by
  rw [knowsType, described.environmentEq, Environment.contains, Registry.contains,
    described.typeEq]

theorem checkType_usable (described : Describes environment log table) (type : Spanned Ty) :
    (table.checkType type).toOption =
      if isUsable environment log type.value then some () else none := by
  unfold checkType
  cases type.value with
  | void | «variable» | int | float => rfl
  | named name =>
      rw [isUsable, ← described.knowsType_eq]
      dsimp only [Ty.reference?]
      by_cases known : table.knowsType name = true
      · simp only [if_pos known]
        rfl
      · simp only [if_neg known]
        rfl

theorem checkTypes_usable (described : Describes environment log table)
    (fragments : List (Spanned Ty)) :
    (fragments.forM table.checkType).toOption =
      if fragments.all fun fragment => isUsable environment log fragment.value then some ()
      else none := by
  induction fragments with
  | nil => rfl
  | cons fragment rest ih =>
      have head := described.checkType_usable fragment
      change (table.checkType fragment >>= fun _ => rest.forM table.checkType).toOption = _
      rw [List.all_cons]
      by_cases usable : isUsable environment log fragment.value = true
      · rw [if_pos usable] at head
        rw [usable, Bool.true_and, ← ih]
        cases checked : table.checkType fragment with
        | ok _ => rfl
        | error error =>
            rw [checked] at head
            cases head
      · rw [if_neg usable] at head
        rw [Bool.eq_false_iff.mpr usable, Bool.false_and, if_neg Bool.false_ne_true]
        cases checked : table.checkType fragment with
        | ok _ =>
            rw [checked] at head
            cases head
        | error error => rfl

/-! ### The step -/

/-- A registration that is refused changes nothing that the log says. -/
theorem concat_refused (described : Describes environment log table) {step : Step}
    (refused : accepts environment log step = false) :
    Describes environment (log ++ [step]) table where
  environmentEq := described.environmentEq
  importsEq := by
    rw [List.filterMap_append, described.importsEq]
    cases step with
    | bringIn path => cases refused
    | bind decl | sign decl | define decl => exact (List.append_nil _).symm
  bindingEq name := by
    have kept : (firstBinding? log name).or (step.binding? name) = firstBinding? log name := by
      cases step with
      | bind decl =>
          rw [Step.binding?]
          by_cases same : decl.name.value = name
          · subst same
            rw [accepts, Option.isNone_eq_false_iff] at refused
            exact Option.or_of_isSome refused
          · rw [if_neg same, Option.or_none]
      | bringIn path | sign decl | define decl => exact Option.or_none
    rw [described.bindingEq, bound?, bound?, firstBinding?_concat, kept, lastSignature?_concat,
      refused]
    rfl
  typeEq name := by
    rw [described.typeEq, definition?, definition?, firstType?_concat]
    by_cases provided : isProvided environment name = true
    · rw [if_pos provided, if_pos provided]
    · rw [if_neg provided, if_neg provided]
      cases step with
      | define decl =>
          rw [Step.type?]
          by_cases same : decl.name.value = name
          · subst same
            rw [accepts, Bool.eq_false_iff.mpr provided, Bool.not_false, Bool.and_true,
              Option.isNone_eq_false_iff] at refused
            exact (Option.or_of_isSome refused).symm
          · rw [if_neg same, Option.or_none]
      | bringIn path | bind decl | sign decl => exact Option.or_none.symm

theorem concat_import (described : Describes environment log table) (path : String) :
    Describes environment (log ++ [.bringIn path]) (table.insertImport path) where
  environmentEq := described.environmentEq
  importsEq := by
    rw [List.filterMap_append, insertImport, described.importsEq]
    rfl
  bindingEq name := (described.bindingEq name).trans (bound?_concat _ _ _ _ rfl rfl).symm
  typeEq name := (described.typeEq name).trans (definition?_concat _ _ _ _ rfl).symm

theorem concat_binding (described : Describes environment log table) (decl : BindingDecl)
    (unbound : firstBinding? log decl.name.value = none) :
    Describes environment (log ++ [.bind decl])
      { table with bindings := table.bindings.add decl.name.value (.ofDecl decl) } where
  environmentEq := described.environmentEq
  importsEq := by
    rw [List.filterMap_append, described.importsEq]
    exact (List.append_nil _).symm
  bindingEq name := by
    change (table.bindings.add decl.name.value (.ofDecl decl)).find? name = _
    rw [Registry.find?_add, described.bindingEq, bound?, bound?, firstBinding?_concat,
      lastSignature?_concat]
    by_cases same : name = decl.name.value
    · subst same
      rw [unbound, lastSignature?_of_unbound environment log _ unbound]
      simp [Step.binding?, Step.signature?, Binding.ofDecl, boundWith]
    · simp [Step.binding?, Step.signature?, same, Ne.symm same]
  typeEq name := (described.typeEq name).trans (definition?_concat _ _ _ _ rfl).symm

theorem concat_signature (described : Describes environment log table) (decl : SignatureDecl)
    (fine : accepts environment log (.sign decl) = true) :
    Describes environment (log ++ [.sign decl])
      { table with
        bindings := table.bindings.modify decl.name.value fun binding =>
          { binding with signature := some (decl.fragments.map Spanned.value) } } where
  environmentEq := described.environmentEq
  importsEq := by
    rw [List.filterMap_append, described.importsEq]
    exact (List.append_nil _).symm
  bindingEq name := by
    change (table.bindings.modify decl.name.value _).find? name = _
    rw [Registry.find?_modify, described.bindingEq, bound?, bound?, firstBinding?_concat,
      lastSignature?_concat, fine, if_pos rfl, Step.binding?, Option.or_none, Option.map_map]
    congr 1
    funext first
    rw [Function.comp_apply, Step.signature?]
    by_cases same : name = decl.name.value
    · rw [if_pos same, if_pos same.symm]
      rfl
    · rw [if_neg same, if_neg (Ne.symm same)]
      rfl
  typeEq name := (described.typeEq name).trans (definition?_concat _ _ _ _ rfl).symm

theorem concat_type (described : Describes environment log table) (decl : TypeDecl)
    (undefined : firstType? log decl.name.value = none)
    (free : isProvided environment decl.name.value = false) :
    Describes environment (log ++ [.define decl])
      { table with types := table.types.add decl.name.value decl } where
  environmentEq := described.environmentEq
  importsEq := by
    rw [List.filterMap_append, described.importsEq]
    exact (List.append_nil _).symm
  bindingEq name := (described.bindingEq name).trans (bound?_concat _ _ _ _ rfl rfl).symm
  typeEq name := by
    change (table.types.add decl.name.value decl).find? name = _
    rw [Registry.find?_add, described.typeEq, definition?, definition?, firstType?_concat,
      Step.type?]
    by_cases same : name = decl.name.value
    · subst same
      rw [free, undefined]
      simp
    · rw [if_neg same, if_neg (Ne.symm same), Option.or_none]

theorem insertBinding (described : Describes environment log table) (decl : BindingDecl) :
    if accepts environment log (.bind decl) then
      ∃ next, table.insertBinding decl = .ok next ∧
        Describes environment (log ++ [.bind decl]) next
    else ∃ error, table.insertBinding decl = .error error := by
  have found := described.bindingEq decl.name.value
  rw [bound?] at found
  rw [accepts]
  unfold Table.insertBinding
  cases first : firstBinding? log decl.name.value with
  | none =>
      rw [first] at found
      rw [found]
      exact ⟨_, rfl, described.concat_binding decl first⟩
  | some earlier =>
      rw [first] at found
      rw [found]
      exact ⟨_, rfl⟩

theorem insertSignature (described : Describes environment log table) (decl : SignatureDecl) :
    if accepts environment log (.sign decl) then
      ∃ next, table.insertSignature decl = .ok next ∧
        Describes environment (log ++ [.sign decl]) next
    else ∃ error, table.insertSignature decl = .error error := by
  have found := described.bindingEq decl.name.value
  have checked := described.checkTypes_usable decl.fragments
  rw [bound?] at found
  unfold Table.insertSignature
  cases first : firstBinding? log decl.name.value with
  | none =>
      rw [first] at found
      rw [found, accepts, first]
      exact ⟨_, rfl⟩
  | some earlier =>
      have judged : accepts environment log (.sign decl) =
          decl.fragments.all fun fragment => isUsable environment log fragment.value := by
        rw [accepts, first, Option.isSome_some, Bool.true_and]
      rw [first] at found
      rw [← judged] at checked
      rw [found]
      by_cases fine : accepts environment log (.sign decl) = true
      · rw [if_pos fine] at checked
        rw [if_pos fine]
        cases outcome : decl.fragments.forM table.checkType with
        | ok _ => exact ⟨_, rfl, described.concat_signature decl fine⟩
        | error error =>
            rw [outcome] at checked
            cases checked
      · rw [if_neg fine] at checked
        rw [if_neg fine]
        cases outcome : decl.fragments.forM table.checkType with
        | error error => exact ⟨_, rfl⟩
        | ok _ =>
            rw [outcome] at checked
            cases checked

theorem insertType (described : Describes environment log table) (decl : TypeDecl) :
    if accepts environment log (.define decl) then
      ∃ next, table.insertType decl = .ok next ∧
        Describes environment (log ++ [.define decl]) next
    else ∃ error, table.insertType decl = .error error := by
  have found := described.typeEq decl.name.value
  have given : ((Ty.ofName decl.name.value).reference?.isNone ||
      table.environment.contains decl.name.value) = isProvided environment decl.name.value := by
    rw [isProvided, Program.isNone_reference?_ofName, described.environmentEq,
      Environment.contains]
  rw [definition?] at found
  rw [accepts]
  unfold Table.insertType
  dsimp only
  rw [given]
  by_cases provided : isProvided environment decl.name.value = true
  · rw [if_pos provided] at found
    rw [provided, Bool.not_true, Bool.and_false, found]
    exact ⟨_, rfl⟩
  · have free := Bool.eq_false_iff.mpr provided
    rw [if_neg provided] at found
    rw [free, Bool.not_false, Bool.and_true, found]
    cases first : firstType? log decl.name.value with
    | none => exact ⟨_, rfl, described.concat_type decl first free⟩
    | some earlier => exact ⟨_, rfl⟩

/-- What comes of one registration, as the log before it says. -/
theorem apply (described : Describes environment log table) (step : Step) :
    if accepts environment log step then
      ∃ next, table.apply step = .ok next ∧ Describes environment (log ++ [step]) next
    else ∃ error, table.apply step = .error error := by
  cases step with
  | bringIn path => exact ⟨_, rfl, described.concat_import path⟩
  | bind decl => exact described.insertBinding decl
  | sign decl => exact described.insertSignature decl
  | define decl => exact described.insertType decl

theorem attempt (described : Describes environment log table) (step : Step) :
    Describes environment (log ++ [step]) (table.attempt step) := by
  have outcome := described.apply step
  by_cases fine : accepts environment log step = true
  · rw [if_pos fine] at outcome
    obtain ⟨next, applied, grown⟩ := outcome
    rw [Table.attempt, applied]
    exact grown
  · rw [if_neg fine] at outcome
    obtain ⟨error, refused⟩ := outcome
    rw [attempt_of_error refused]
    exact described.concat_refused (Bool.eq_false_iff.mpr fine)

/-! ### The run -/

theorem run (described : Describes environment log table) (steps : List Step) :
    Describes environment (log ++ steps) (table.run steps) := by
  induction steps generalizing log table with
  | nil =>
      rw [List.append_nil]
      exact described
  | cons step rest ih =>
      have later := ih (described.attempt step)
      rw [List.append_assoc] at later
      exact later

/-! ### What such a table answers -/

theorem binding_eq (described : Describes environment log table) (name : String) :
    table.binding name =
      match firstBinding? log name with
      | some decl => .ok (boundWith (lastSignature? environment log name) decl)
      | none => .error (.noSuchBinding name none) := by
  rw [Table.binding, described.bindingEq, bound?]
  cases firstBinding? log name <;> rfl

theorem insertBinding_iff (described : Describes environment log table) (decl : BindingDecl) :
    (∃ next, table.insertBinding decl = .ok next) ↔
      firstBinding? log decl.name.value = none := by
  have outcome := described.insertBinding decl
  rw [accepts] at outcome
  cases first : firstBinding? log decl.name.value with
  | none =>
      rw [first] at outcome
      obtain ⟨next, inserted, _grown⟩ := outcome
      exact ⟨fun _success => rfl, fun _fresh => ⟨next, inserted⟩⟩
  | some earlier =>
      rw [first] at outcome
      obtain ⟨error, refused⟩ := outcome
      constructor
      · rintro ⟨next, inserted⟩
        rw [refused] at inserted
        cases inserted
      · intro impossible
        cases impossible

theorem typeDecl_eq (described : Describes environment log table) (name : String) :
    table.typeDecl name =
      if name ∈ ["int", "f64", "void"] ∨ name ∈ environment.names then .error (.noSuchType name)
      else
        match firstType? log name with
        | some decl => .ok decl
        | none => .error (.noSuchType name) := by
  have provided : isProvided environment name = true ↔
      name ∈ ["int", "f64", "void"] ∨ name ∈ environment.names := by
    rw [isProvided, Bool.or_eq_true, List.contains_iff_mem, List.contains_iff_mem]
  rw [Table.typeDecl, described.typeEq, definition?]
  by_cases given : isProvided environment name = true
  · rw [if_pos given, if_pos (provided.mp given)]
  · have free := fun named => given (provided.mpr named)
    cases firstType? log name with
    | none => simp only [if_neg given, if_neg free]
    | some decl => simp only [if_neg given, if_neg free]

end Describes

theorem describes_run (environment : Environment) (log : List Step) :
    Describes environment log ((Table.empty environment).run log) :=
  (Describes.empty environment).run log

theorem isOk_apply_run (environment : Environment) (log : List Step) (step : Step) :
    (((Table.empty environment).run log).apply step).isOk = accepts environment log step := by
  have outcome := (describes_run environment log).apply step
  by_cases fine : accepts environment log step = true
  · rw [if_pos fine] at outcome
    obtain ⟨next, applied, _grown⟩ := outcome
    rw [applied, fine]
    rfl
  · rw [if_neg fine] at outcome
    obtain ⟨error, refused⟩ := outcome
    rw [refused, Bool.eq_false_iff.mpr fine]
    rfl

/-- After any run a name is bound as the first binding of it said, with the signature that was
accepted last; a type is what its first definition said, unless the environment gives it; and
imports are all there, in order. Whether a registration succeeds is decided by the log before it: a
binding succeeds exactly if it is the first of its name. -/
theorem run_answers_log (environment : Environment) (log : List Step) :
    (∀ name, ((Table.empty environment).run log).binding name =
      match firstBinding? log name with
      | some decl => .ok (boundWith (lastSignature? environment log name) decl)
      | none => .error (.noSuchBinding name none)) ∧
    (∀ step, (((Table.empty environment).run log).apply step).isOk =
      accepts environment log step) ∧
    (∀ decl, (∃ next, ((Table.empty environment).run log).insertBinding decl = .ok next) ↔
      firstBinding? log decl.name.value = none) ∧
    (∀ name, ((Table.empty environment).run log).typeDecl name =
      if name ∈ ["int", "f64", "void"] ∨ name ∈ environment.names then .error (.noSuchType name)
      else
        match firstType? log name with
        | some decl => .ok decl
        | none => .error (.noSuchType name)) ∧
    ((Table.empty environment).run log).imports = log.filterMap Step.import? ∧
    ((Table.empty environment).run log).environment = environment := by
  have described := describes_run environment log
  exact ⟨described.binding_eq, isOk_apply_run environment log, described.insertBinding_iff,
    described.typeDecl_eq, described.importsEq, described.environmentEq⟩

-- The first signature comes before the type it names, and the last one names no type at all.
example :
    lastSignature? .empty
      [.bind ⟨⟨"x", ⟨0, 1⟩⟩, [], .integer 1 ⟨4, 5⟩, false⟩,
        .sign ⟨⟨"x", ⟨6, 7⟩⟩, [⟨.named "P", ⟨11, 12⟩⟩]⟩,
        .define ⟨⟨"P", ⟨18, 19⟩⟩, [], false⟩,
        .sign ⟨⟨"x", ⟨23, 24⟩⟩, [⟨.named "P", ⟨28, 29⟩⟩, ⟨.int, ⟨33, 36⟩⟩]⟩,
        .sign ⟨⟨"x", ⟨37, 38⟩⟩, [⟨.named "Q", ⟨42, 43⟩⟩]⟩] "x" =
      some [.named "P", .int] := by
  decide

end Bindery.Table
