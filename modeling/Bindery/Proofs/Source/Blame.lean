import Bindery.Proofs.Collection.Placement
import Bindery.Proofs.Source.Sites
import Bindery.Proofs.Table.Acceptance

set_option autoImplicit false

/-! Where errors point. An error about a name, a type or a literal points at its text; one about a
declaration as a whole points at the declaration. A second definition also points at the first one,
which stands before it. This holds of the errors of reading a source and of those of registering it,
whatever the source and the environment are. -/

namespace Bindery

namespace Source

def Decl.Binds (identifiers : List String) (decl : Decl) : Prop :=
  ∃ exported body, decl = .binding exported identifiers body

def Decl.DefinesType (name : String) (decl : Decl) : Prop :=
  ∃ exported fields, decl = .typeDefinition exported name fields

end Source

open Source

/-- An error that points at what it is about, in a source of these declarations. -/
def SemanticError.PointsAt (text : String) (decls : List Decl) : SemanticError → Prop
  | .bindingExists name span first =>
      Text.slice text span = some name ∧ Text.slice text first = some name ∧ first.Before span
  | .noSuchBinding name place => ∃ span, place = some span ∧ Text.slice text span = some name
  | .typeExists name span first =>
      Text.slice text span = some name ∧
        ∃ site : Site, site.In decls ∧ site.decl.DefinesType name ∧ span.Within site.span ∧
          (first.isSome = true ↔ ∃ earlier ∈ site.front, earlier.DefinesType name) ∧
            ∀ place, first = some place → Text.slice text place = some name ∧ place.Before span
  | .unknownType name span => Text.slice text span = some name
  | .bindingWithoutName span =>
      ∃ site : Site, site.In decls ∧ site.decl.Binds [] ∧ span = site.span ∧
        Text.slice text span = some (tree [site.decl]).text
  | .bindingWithoutBody name span =>
      ∃ (site : Site) (parameters : List String), site.In decls ∧
        site.decl.Binds (name :: parameters) ∧ span = site.span ∧
          Text.slice text span = some (tree [site.decl]).text
  | .functionField name span => ∃ rest, Text.slice text span = some (name ++ rest)
  | .invalidLiteral _ written span => Text.slice text span = some written
  | .notExported _ | .noSuchType _ => False

namespace Source

open Syntax Text

/-! ### Errors of reading -/

section Reading

variable {text : String} {error : SemanticError}

mutual

theorem Term.faults_at (before : String) : (term : Term) →
    BeginsWith text (term.layout.after before) → error ∈ term.faults before →
      ∃ kind written span, error = .invalidLiteral kind written span ∧
        Text.slice text span = some written
  | .integer written, begins, member => by
      rw [Term.after_layout] at begins
      rw [Term.faults, Collection.integerFaults] at member
      split at member
      · cases member
      · exact ⟨_, _, _, List.mem_singleton.mp member, slice_word rfl begins⟩
  | .float written, begins, member => by
      rw [Term.after_layout] at begins
      rw [Term.faults, Collection.floatFaults] at member
      split at member
      · cases member
      · exact ⟨_, _, _, List.mem_singleton.mp member, slice_word rfl begins⟩
  | .string _, _, member | .boolean _, _, member | .identifier _, _, member => by cases member
  | .binary left operator right, begins, member => by
      rw [Term.after_binary] at begins
      rcases List.mem_append.mp member with inLeft | inRight
      · exact Term.faults_at before left (Layout.begins_before (Layout.begins_before begins)) inLeft
      · exact Term.faults_at _ right begins inRight
  | .paren inner, begins, member => by
      rw [Term.after_paren] at begins
      exact Term.faults_at _ inner (Layout.begins_before begins) member
  | .call callee arguments, begins, member => by
      rw [Term.after_call] at begins
      have inBrackets := Layout.begins_before begins
      rcases List.mem_append.mp member with inCallee | inArguments
      · exact Term.faults_at before callee
          (Layout.begins_before (Layout.begins_before inBrackets)) inCallee
      · exact Term.faultsAll_at _ true arguments inBrackets inArguments

theorem Term.faultsAll_at (before : String) (isFirst : Bool) :
    (arguments : List (Option String × Term)) →
      BeginsWith text ((Term.contentAll arguments isFirst).after before) →
        error ∈ Term.faultsAll arguments isFirst before →
          ∃ kind written span, error = .invalidLiteral kind written span ∧
            Text.slice text span = some written
  | [], _, member => by cases member
  | (label, value) :: rest, begins, member => by
      rw [Term.after_arguments] at begins
      have own := Layout.begins_before begins
      rw [Layout.after_node, Layout.after_next] at own
      rcases List.mem_append.mp member with inValue | inRest
      · exact Term.faults_at _ value own inValue
      · exact Term.faultsAll_at _ false rest begins inRest

end

theorem fieldsFaults_at (fields : List (String × TypeExpr)) (isFirst : Bool) (before : String)
    (begins : BeginsWith text ((fieldsLayout fields isFirst).after before))
    (member : error ∈ fieldsFaults fields isFirst before) :
    ∃ name span rest, error = .functionField name span ∧
      Text.slice text span = some (name ++ rest) := by
  induction fields generalizing isFirst before with
  | nil => cases member
  | cons field others ih =>
      rw [after_fields] at begins
      rcases List.mem_append.mp member with own | later
      · have inField := Layout.begins_before begins
        rw [Layout.after_node] at inField
        have written (start : String) : ∃ rest, (fieldContent field).after start =
            Layout.gap.after start ++ (field.1 ++ rest) := by
          rw [fieldContent, Layout.after_next, Layout.after_word, Layout.after]
          exact ⟨_, String.append_assoc⟩
        obtain ⟨rest, writtenEq⟩ := written (fieldStart isFirst before)
        unfold fieldFaults at own
        split at own
        · refine ⟨_, _, rest, List.mem_singleton.mp own, ?_⟩
          exact (opens_field field).slice writtenEq inField
        · cases own
      · exact ih false _ begins later

theorem bindingFaults_at {site : Site} {exported : Bool} {identifiers : List String}
    {body : Option Term} {decls : List Decl} (inside : site.In decls)
    (declEq : site.decl = .binding exported identifiers body)
    (member : error ∈ site.decl.faults site.before) :
    error.PointsAt (tree decls).text decls := by
  have place : site.decl.place site.before = site.span := by
    rw [Decl.place, site.decl.opens.place, Site.span, Decl.layout, Layout.extent_node]
  have begins := inside.begins
  have own := inside.slice
  rw [Site.after] at begins
  rw [declEq, Decl.faults, ← declEq, place] at member
  rw [declEq, after_binding] at begins
  rcases List.mem_append.mp member with inBody | inHead
  · cases body with
    | none => cases inBody
    | some term =>
        obtain ⟨kind, written, span, rfl, slice⟩ := term.faults_at _ begins inBody
        exact slice
  · cases identifiers with
    | nil =>
        rw [List.mem_singleton.mp inHead]
        exact ⟨site, inside, ⟨exported, body, declEq⟩, rfl, own⟩
    | cons name parameters =>
        rw [wordsAt] at inHead
        unfold bindingFaults at inHead
        split at inHead
        · contradiction
        · rename_i same _none
          obtain ⟨rfl, _parameters⟩ := List.cons.inj same
          rw [List.mem_singleton.mp inHead]
          exact ⟨site, parameters, inside, ⟨exported, body, declEq⟩, rfl, own⟩
        · cases inHead

theorem faults_at {decls : List Decl} (member : error ∈ faults decls true "") :
    error.PointsAt (tree decls).text decls := by
  change error ∈ faults decls ([] : List Decl).isEmpty (tree []).text at member
  rw [faults_sites, List.mem_flatMap] at member
  obtain ⟨site, present, inDecl⟩ := member
  have inside := in_of_mem_sites present
  cases declEq : site.decl with
  | bringIn path =>
      rw [declEq] at inDecl
      cases inDecl
  | binding exported identifiers body => exact bindingFaults_at inside declEq inDecl
  | signature name type =>
      rw [declEq] at inDecl
      cases inDecl
  | typeDefinition exported name fields =>
      have begins := inside.begins
      rw [Site.after, declEq, after_typeDefinition] at begins
      rw [declEq] at inDecl
      obtain ⟨fieldName, span, rest, rfl, slice⟩ :=
        fieldsFaults_at fields true _ (Layout.begins_before begins) inDecl
      exact ⟨rest, slice⟩

end Reading

/-! ### Types that are used -/

/-- A fragment that refers to a name stands where that name is written. -/
def ReferenceAt (text : String) (fragment : Spanned Ty) : Prop :=
  ∀ name, fragment.value = .named name → Text.slice text fragment.span = some name

theorem ofName_eq_named {written name : String} (same : Ty.ofName written = .named name) :
    written = name := by
  rcases Ty.ofName_cases written with ⟨-, stands⟩ | ⟨-, stands⟩ | ⟨-, stands⟩ | ⟨-, stands⟩
  · cases stands.symm.trans same
  · cases stands.symm.trans same
  · cases stands.symm.trans same
  · exact Ty.named.inj (stands.symm.trans same)

mutual

theorem TypeExpr.writings_named {writing : Ty × String} {name : String}
    (named : writing.1 = .named name) :
    (type : TypeExpr) → writing ∈ type.writings → writing.2 = name
  | .named written, member => by
      obtain rfl := List.mem_singleton.mp member
      exact ofName_eq_named named
  | .void, member => by
      obtain rfl := List.mem_singleton.mp member
      cases named
  | .variable written, member => by
      obtain rfl := List.mem_singleton.mp member
      cases named
  | .arrow types, member => TypeExpr.writingsAll_named named types member

theorem TypeExpr.writingsAll_named {writing : Ty × String} {name : String}
    (named : writing.1 = .named name) : (types : List TypeExpr) →
      writing ∈ TypeExpr.writingsAll types → writing.2 = name
  | [], member => by cases member
  | type :: rest, member => by
      rcases List.mem_append.mp member with own | later
      · exact TypeExpr.writings_named named type own
      · exact TypeExpr.writingsAll_named named rest later

end

theorem references_of_writings {text : String} {writings : List (Ty × String)}
    {fragments : List (Spanned Ty)} (placed : List.Forall₂ (FragmentAt text) writings fragments)
    (faithful : ∀ writing ∈ writings, ∀ name, writing.1 = .named name → writing.2 = name) :
    ∀ fragment ∈ fragments, ReferenceAt text fragment := by
  induction placed with
  | nil => exact List.forall_mem_nil _
  | cons first others ih =>
      rw [List.forall_mem_cons] at faithful ⊢
      refine ⟨?_, ih faithful.2⟩
      intro name named
      rw [first.2, faithful.1 name (first.1 ▸ named)]

theorem TypeExpr.references_at {text before : String} (type : TypeExpr)
    (begins : BeginsWith text (type.layout.after before)) :
    ∀ fragment ∈ type.fragments before, ReferenceAt text fragment := by
  apply references_of_writings (type.fragments_at before begins)
  intro writing member name named
  exact type.writings_named named member

theorem fieldEntries_references {text : String} (fields : List (String × TypeExpr))
    (isFirst : Bool) (before : String)
    (begins : BeginsWith text ((fieldsLayout fields isFirst).after before)) :
    ∀ field ∈ fieldEntries fields isFirst before, ReferenceAt text field.type := by
  induction fields generalizing isFirst before with
  | nil => exact List.forall_mem_nil _
  | cons field rest ih =>
      rw [after_fields] at begins
      have own := Layout.begins_before begins
      rw [Layout.after_node, after_field] at own
      have references := field.2.references_at own
      rw [fieldEntries, List.forall_mem_append]
      refine ⟨?_, ih false _ begins⟩
      intro entry member
      unfold fieldEntry at member
      split at member
      · rename_i type fragments
        rw [List.mem_singleton.mp member]
        apply references
        rw [fragments]
        exact List.mem_singleton_self type
      · cases member

/-! ### What a source declares -/

section Declared

variable (decls : List Decl)

theorem names_at :
    ∀ name ∈ (entries decls true "").names, name.WrittenIn (tree decls).text := by
  have stands := Collection.standsIn_tree (tree decls)
  rw [readAll_tree, readAll_inner] at stands
  exact stands.names

theorem typeName_at {decl : TypeDecl} (member : decl ∈ (entries decls true "").types) :
    decl.name.WrittenIn (tree decls).text := by
  apply names_at
  rw [Program.names, List.mem_append, List.mem_flatMap]
  exact Or.inr ⟨decl, member, List.mem_cons_self⟩

theorem bindingName_at {decl : BindingDecl} (member : decl ∈ (entries decls true "").bindings) :
    decl.name.WrittenIn (tree decls).text := by
  apply names_at
  rw [Program.names, List.mem_append, List.mem_append]
  exact Or.inl (Or.inl (List.mem_map_of_mem member))

theorem signatureName_at {decl : SignatureDecl}
    (member : decl ∈ (entries decls true "").signatures) :
    decl.name.WrittenIn (tree decls).text := by
  apply names_at
  rw [Program.names, List.mem_append, List.mem_append]
  exact Or.inl (Or.inr (List.mem_map_of_mem member))

theorem fieldTypes_at {decl : TypeDecl} (member : decl ∈ (entries decls true "").types) :
    ∀ field ∈ decl.fields, ReferenceAt (tree decls).text field.type := by
  rw [types_entries, List.mem_filterMap] at member
  obtain ⟨site, present, typed⟩ := member
  have begins := (in_of_mem_sites present).begins
  obtain ⟨front, source⟩ := site
  cases source with
  | bringIn path => cases typed
  | binding exported identifiers body => cases typed
  | signature name type => cases typed
  | typeDefinition exported name fields =>
      obtain rfl := Option.some.inj typed
      rw [Site.after, after_typeDefinition] at begins
      exact fieldEntries_references fields true _ (Layout.begins_before begins)

theorem signatureTypes_at {decl : SignatureDecl}
    (member : decl ∈ (entries decls true "").signatures) :
    ∀ fragment ∈ decl.fragments, ReferenceAt (tree decls).text fragment := by
  have atSites := entries_sites Program.signatures rfl (fun _ _ => rfl) [] decls
  change (entries decls true "").signatures = _ at atSites
  rw [atSites, List.mem_flatMap] at member
  obtain ⟨site, present, declared⟩ := member
  have begins := (in_of_mem_sites present).begins
  obtain ⟨front, source⟩ := site
  cases source with
  | bringIn path => cases declared
  | binding exported identifiers body => cases declared
  | signature name type =>
      rw [List.mem_singleton.mp declared]
      rw [Site.after, after_signature] at begins
      exact type.references_at begins
  | typeDefinition exported name fields => cases declared

theorem Site.type?_eq_some {site : Site} {found : TypeDecl} (typed : site.type? = some found) :
    site.decl.DefinesType found.name.value := by
  obtain ⟨front, decl⟩ := site
  cases decl with
  | bringIn path => cases typed
  | binding exported identifiers body => cases typed
  | signature name type => cases typed
  | typeDefinition exported name fields =>
      obtain rfl := Option.some.inj typed
      exact ⟨exported, fields, rfl⟩

theorem Site.exists_type? {site : Site} {name : String} (defines : site.decl.DefinesType name) :
    ∃ found, site.type? = some found ∧ found.name.value = name := by
  obtain ⟨front, decl⟩ := site
  obtain ⟨exported, fields, rfl⟩ := defines
  exact ⟨_, rfl, rfl⟩

/-- The types before a type are those that the declarations in front of it define. -/
theorem types_split {earlier later : List TypeDecl} {decl : TypeDecl}
    (split : (entries decls true "").types = earlier ++ decl :: later) :
    ∃ site : Site, site.In decls ∧ site.type? = some decl ∧
      ∀ name, (∃ other ∈ earlier, other.name.value = name) ↔
        ∃ other ∈ site.front, other.DefinesType name := by
  rw [types_entries, List.filterMap_eq_append_iff] at split
  obtain ⟨frontSites, others, sitesEq, earlierEq, othersEq⟩ := split
  obtain ⟨skipped, site, behind, restEq, nothing, typed, _laterEq⟩ :=
    List.filterMap_eq_cons_iff.mp othersEq
  rw [restEq, ← List.append_assoc] at sitesEq
  obtain ⟨frontEq, _declsEq⟩ := sites_split sitesEq
  have present : site ∈ sites [] decls := by
    rw [sitesEq]
    exact List.mem_append_right _ List.mem_cons_self
  refine ⟨site, in_of_mem_sites present, typed, ?_⟩
  intro name
  rw [frontEq, List.nil_append, ← earlierEq]
  constructor
  · rintro ⟨other, member, rfl⟩
    obtain ⟨otherSite, inFront, otherTyped⟩ := List.mem_filterMap.mp member
    exact ⟨otherSite.decl, List.mem_map_of_mem (List.mem_append_left _ inFront),
      Site.type?_eq_some otherTyped⟩
  · rintro ⟨other, member, defines⟩
    obtain ⟨otherSite, inFront, rfl⟩ := List.mem_map.mp member
    obtain ⟨found, otherTyped, same⟩ := Site.exists_type? defines
    rcases List.mem_append.mp inFront with first | second
    · exact ⟨found, List.mem_filterMap.mpr ⟨otherSite, first, otherTyped⟩, same⟩
    · rw [nothing otherSite second] at otherTyped
      cases otherTyped

end Declared

/-! ### Errors of registering -/

section Registering

variable {environment : Environment} {decls : List Decl} {error : SemanticError}

theorem typeFaults_at
    (member : error ∈ faultsAfter (Program.typeFaults environment) []
      (entries decls true "").types) :
    error.PointsAt (tree decls).text decls := by
  obtain ⟨earlier, decl, later, split, fault⟩ := mem_faultsAfter member
  rw [List.nil_append] at fault
  have ordered := pairwise_types decls
  obtain ⟨site, inside, typed, front⟩ := types_split decls split
  have present : ∀ other, other ∈ earlier ∨ other = decl →
      other.name.WrittenIn (tree decls).text := by
    intro other member
    apply typeName_at decls
    rw [split, List.mem_append, List.mem_cons]
    rcases member with before | same
    · exact Or.inl before
    · exact Or.inr (Or.inl same)
  have own := present decl (Or.inr rfl)
  have defines := Site.type?_eq_some typed
  have within := Site.type?_within typed
  rw [split, List.pairwise_append] at ordered
  unfold Program.typeFaults at fault
  split at fault
  · rename_i first found
    have before := List.mem_of_find?_eq_some found
    have same := List.find?_some found
    rw [decide_eq_true_eq] at same
    rw [List.mem_singleton.mp fault]
    refine ⟨own, site, inside, defines, within, ?_, ?_⟩
    · rw [← front]
      exact ⟨fun _ => ⟨first, before, same⟩, fun _ => rfl⟩
    · intro place placeEq
      obtain rfl := Option.some.inj placeEq
      have written := present first (Or.inl before)
      rw [Spanned.WrittenIn, same] at written
      exact ⟨written, ordered.2.2 first before decl List.mem_cons_self⟩
  · rename_i absent
    split at fault
    · rw [List.mem_singleton.mp fault]
      refine ⟨own, site, inside, defines, within, ?_, ?_⟩
      · rw [← front]
        constructor
        · intro impossible
          cases impossible
        · rintro ⟨other, before, same⟩
          exact absurd same ((Program.find?_name_eq_none_iff _ _ _).mp absent other before)
      · intro place impossible
        cases impossible
    · cases fault

theorem bindingFaults_at_names
    (member : error ∈ faultsAfter Program.bindingFaults [] (entries decls true "").bindings) :
    error.PointsAt (tree decls).text decls := by
  obtain ⟨earlier, decl, later, split, fault⟩ := mem_faultsAfter member
  rw [List.nil_append] at fault
  have ordered := pairwise_bindings decls
  have present : ∀ other, other ∈ earlier ++ decl :: later →
      other.name.WrittenIn (tree decls).text := by
    intro other member
    rw [← split] at member
    exact bindingName_at decls member
  rw [split, List.pairwise_append] at ordered
  unfold Program.bindingFaults at fault
  split at fault
  · rename_i first found
    have before := List.mem_of_find?_eq_some found
    have same := List.find?_some found
    rw [decide_eq_true_eq] at same
    have written := present first (List.mem_append_left _ before)
    rw [Spanned.WrittenIn, same] at written
    rw [List.mem_singleton.mp fault]
    exact ⟨present decl (List.mem_append_right _ List.mem_cons_self), written,
      ordered.2.2 first before decl List.mem_cons_self⟩
  · cases fault

theorem useFaults_at {text : String} {types : List TypeDecl} {type : Spanned Ty}
    (reference : ReferenceAt text type)
    (member : error ∈ Program.useFaults environment types type) : error.PointsAt text decls := by
  unfold Program.useFaults at member
  split at member
  · rename_i name named
    split at member
    · cases member
    · rw [List.mem_singleton.mp member]
      exact reference name named
  all_goals cases member

theorem programFaults_at (member : error ∈ (entries decls true "").faults environment) :
    error.PointsAt (tree decls).text decls := by
  rw [Program.faults, List.mem_append, List.mem_append, List.mem_append] at member
  rcases member with ((inTypes | inFields) | inBindings) | inSignatures
  · exact typeFaults_at inTypes
  · obtain ⟨field, inType, fault⟩ := List.mem_flatMap.mp inFields
    obtain ⟨decl, declared, inDecl⟩ := List.mem_flatMap.mp inType
    exact useFaults_at (fieldTypes_at decls declared field inDecl) fault
  · exact bindingFaults_at_names inBindings
  · obtain ⟨decl, declared, fault⟩ := List.mem_flatMap.mp inSignatures
    unfold Program.signatureFaults at fault
    split at fault
    · obtain ⟨fragment, inDecl, used⟩ := List.mem_flatMap.mp fault
      exact useFaults_at (signatureTypes_at decls declared fragment inDecl) used
    · rw [List.mem_singleton.mp fault]
      exact ⟨decl.name.span, rfl, signatureName_at decls declared⟩

end Registering

end Source

end Bindery
