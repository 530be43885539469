import Bindery.Proofs.Source.Juxtaposition
import Bindery.Proofs.Source.Spelling

set_option autoImplicit false

/-! The declarations of a source at their lines. Every declaration begins a line, where it has the
text that it has by itself, and what stands behind it is further to the right. The entries and the
faults of a source are those of its declarations at their sites. -/

namespace Bindery.Source

open Syntax Text

/-- A declaration and those in front of it. -/
structure Site where
  front : List Decl
  decl : Decl

/-- The sites of declarations that stand behind others. -/
def sites : List Decl → List Decl → List Site
  | _, [] => []
  | front, decl :: rest => ⟨front, decl⟩ :: sites (front ++ [decl]) rest

namespace Site

/-- What stands before a declaration: the text of those in front of it and a line break, if there
are any. -/
def before (site : Site) : String := declStart site.front.isEmpty (tree site.front).text

def after (site : Site) : String := site.decl.layout.after site.before

def span (site : Site) : Span := site.decl.layout.extent site.before

/-- The site of one of these declarations. -/
def In (decls : List Decl) (site : Site) : Prop := ∃ back, decls = site.front ++ site.decl :: back

end Site

theorem map_decl_sites (front decls : List Decl) : (sites front decls).map Site.decl = decls := by
  induction decls generalizing front with
  | nil => rfl
  | cons decl rest ih => rw [sites, List.map_cons, ih]

theorem sites_split {front decls : List Decl} {earlier later : List Site} {site : Site}
    (split : sites front decls = earlier ++ site :: later) :
    site.front = front ++ earlier.map Site.decl ∧
      decls = earlier.map Site.decl ++ site.decl :: later.map Site.decl := by
  induction earlier generalizing front decls with
  | nil =>
      cases decls with
      | nil => cases split
      | cons decl rest =>
          rw [sites, List.nil_append, List.cons.injEq] at split
          obtain ⟨rfl, rfl⟩ := split
          rw [map_decl_sites, List.map_nil, List.append_nil]
          exact ⟨rfl, rfl⟩
  | cons first others ih =>
      cases decls with
      | nil => cases split
      | cons decl rest =>
          rw [sites, List.cons_append, List.cons.injEq] at split
          obtain ⟨rfl, others_split⟩ := split
          obtain ⟨frontEq, restEq⟩ := ih others_split
          constructor
          · rw [frontEq, List.map_cons, List.append_assoc]
            rfl
          · rw [List.map_cons, List.cons_append, ← restEq]

theorem in_of_mem_sites {decls : List Decl} {site : Site} (member : site ∈ sites [] decls) :
    site.In decls := by
  obtain ⟨earlier, later, split⟩ := List.append_of_mem member
  obtain ⟨frontEq, declsEq⟩ := sites_split split
  rw [List.nil_append] at frontEq
  exact ⟨later.map Site.decl, by rw [frontEq, ← declsEq]⟩

/-! ### Texts at sites -/

theorem text_tree (decls : List Decl) : (tree decls).text = (declsLayout decls true).after "" :=
  String.empty_append.symm

theorem text_tree_concat (front : List Decl) (decl : Decl) :
    (tree (front ++ [decl])).text = (Site.mk front decl).after := by
  rw [text_tree, declsLayout_append, Bool.true_and, Layout.after_next, ← text_tree, declsLayout,
    Layout.after_next, Layout.after_next, declsLayout, Layout.after_nothing]
  rfl

theorem begins_tree (front back : List Decl) :
    BeginsWith (tree (front ++ back)).text (tree front).text := by
  have whole := BeginsWith.whole (tree (front ++ back)).text
  rw [text_tree (front ++ back), declsLayout_append, Layout.after_next, ← text_tree] at whole
  rw [text_tree (front ++ back), declsLayout_append, Layout.after_next, ← text_tree]
  exact Layout.begins_before whole

namespace Site

theorem In.begins {decls : List Decl} {site : Site} (inside : site.In decls) :
    BeginsWith (tree decls).text site.after := by
  obtain ⟨back, declsEq⟩ := inside
  have begins := begins_tree (site.front ++ [site.decl]) back
  rw [List.append_assoc, List.singleton_append, ← declsEq, text_tree_concat] at begins
  exact begins

theorem opened (site : Site) : Draft.isOpenEnded site.before = true := by
  obtain ⟨front, decl⟩ := site
  cases front with
  | nil => rfl
  | cons first rest =>
      have line : (Site.mk (first :: rest) decl).before = (tree (first :: rest)).text ++ "\n" :=
        Layout.after_raw .whitespace "\n" _
      rw [line]
      exact Layout.isOpenEnded_line _

/-- At its site a declaration has the text that it has by itself. -/
theorem after_eq (site : Site) : site.after = site.before ++ (tree [site.decl]).text := by
  have alone : (tree [site.decl]).text = Forest.text (site.decl.layout "") := by
    rw [text_tree, declsLayout, Layout.after_next, Layout.after_next, declsLayout,
      Layout.after_nothing]
    exact String.empty_append
  have composed : site.decl.layout.Composed := .node site.decl.kind site.decl.composed_content
  have behind := composed.behind site.before "" site.opened
  rw [String.append_empty] at behind
  rw [after, Layout.after, behind, alone]

theorem gap_before (site : Site) :
    Layout.gap.after site.before = site.before := by
  rw [Layout.after, Layout.gap, if_pos site.opened]
  exact String.append_empty

theorem In.slice {decls : List Decl} {site : Site} (inside : site.In decls) :
    Text.slice (tree decls).text site.span = some (tree [site.decl]).text := by
  apply Layout.slice_extent
  · rw [gap_before]
    exact site.after_eq
  · exact inside.begins

end Site

/-! ### The order of sites -/

theorem size_le_start {front decls : List Decl} {site : Site} (member : site ∈ sites front decls) :
    (tree front).text.utf8ByteSize ≤ site.span.start := by
  induction decls generalizing front with
  | nil => cases member
  | cons decl rest ih =>
      have line : (tree front).text.utf8ByteSize ≤ (Site.mk front decl).before.utf8ByteSize :=
        Layout.size_le_after _ _
      rcases List.mem_cons.mp member with rfl | later
      · exact Nat.le_trans line (Layout.size_le_wordStart _)
      · have behind := ih later
        rw [text_tree_concat] at behind
        have own : (Site.mk front decl).before.utf8ByteSize ≤
            (Site.mk front decl).after.utf8ByteSize := Layout.size_le_after _ _
        omega

theorem pairwise_sites (front decls : List Decl) :
    (sites front decls).Pairwise fun first second => first.span.Before second.span := by
  induction decls generalizing front with
  | nil => exact List.Pairwise.nil
  | cons decl rest ih =>
      rw [sites, List.pairwise_cons]
      refine ⟨?_, ih _⟩
      intro site member
      have behind := size_le_start member
      rw [text_tree_concat] at behind
      exact behind

/-! ### Entries and faults at sites -/

theorem faults_sites (front decls : List Decl) :
    faults decls front.isEmpty (tree front).text =
      (sites front decls).flatMap fun site => site.decl.faults site.before := by
  induction decls generalizing front with
  | nil => rfl
  | cons decl rest ih =>
      have others := ih (front ++ [decl])
      have more : (front ++ [decl]).isEmpty = false := by simp
      rw [text_tree_concat, more] at others
      rw [sites, List.flatMap_cons, ← others, faults]
      rfl

/-- What a source declares of one kind is what its declarations do. -/
theorem entries_sites {α : Type} (part : Program → List α) (partEmpty : part .empty = [])
    (partAppend : ∀ first second, part (first.append second) = part first ++ part second)
    (front decls : List Decl) :
    part (entries decls front.isEmpty (tree front).text) =
      (sites front decls).flatMap fun site => part (site.decl.entries site.before) := by
  induction decls generalizing front with
  | nil => exact partEmpty
  | cons decl rest ih =>
      have others := ih (front ++ [decl])
      have more : (front ++ [decl]).isEmpty = false := by simp
      rw [text_tree_concat, more] at others
      rw [sites, List.flatMap_cons, ← others, entries, partAppend]
      rfl

namespace Site

def type? (site : Site) : Option TypeDecl := (site.decl.entries site.before).types.head?

def binding? (site : Site) : Option BindingDecl := (site.decl.entries site.before).bindings.head?

end Site

theorem types_entries (decls : List Decl) :
    (entries decls true "").types = (sites [] decls).filterMap Site.type? := by
  have single (site : Site) : (site.decl.entries site.before).types = site.type?.toList := by
    rw [Site.type?]
    cases site.decl <;> rfl
  rw [List.filterMap_eq_flatMap_toList]
  refine (entries_sites Program.types rfl (fun _ _ => rfl) [] decls).trans ?_
  exact congrArg (sites [] decls).flatMap (funext single)

theorem bindings_entries (decls : List Decl) :
    (entries decls true "").bindings = (sites [] decls).filterMap Site.binding? := by
  have single (site : Site) : (site.decl.entries site.before).bindings = site.binding?.toList := by
    rw [Site.binding?]
    cases site.decl with
    | bringIn path => rfl
    | binding exported identifiers body =>
        rw [Decl.entries]
        unfold bindingEntry
        split <;> rfl
    | signature name type => rfl
    | typeDefinition exported name fields => rfl
  rw [List.filterMap_eq_flatMap_toList]
  refine (entries_sites Program.bindings rfl (fun _ _ => rfl) [] decls).trans ?_
  exact congrArg (sites [] decls).flatMap (funext single)

/-! ### The order of names -/

theorem span_wordAt (name before : String) :
    (wordAt name before).span = (Layout.word .identifier name).extent before := by
  rw [Layout.extent, Layout.after_word, String.utf8ByteSize_append]
  rfl

/-- The name of a type stands inside its definition. -/
theorem Site.type?_within {site : Site} {found : TypeDecl} (typed : site.type? = some found) :
    found.name.span.Within site.span := by
  obtain ⟨front, decl⟩ := site
  cases decl with
  | bringIn path => cases typed
  | binding exported identifiers body => cases typed
  | signature name type => cases typed
  | typeDefinition exported name fields =>
      obtain rfl := Option.some.inj typed
      change (wordAt name _).span.Within _
      rw [span_wordAt, Site.span, Decl.layout, Layout.extent_node]
      exact (Layout.within_first _ _ _).trans
        ((Layout.within_second (.word .typeWord "type") _ _).trans
          (Layout.within_second (visibilityLayout exported) _ _))

theorem Site.binding?_within {site : Site} {found : BindingDecl}
    (bound : site.binding? = some found) : found.name.span.Within site.span := by
  obtain ⟨front, decl⟩ := site
  cases decl with
  | bringIn path => cases bound
  | binding exported identifiers body =>
      cases identifiers with
      | nil => cases bound
      | cons name parameters =>
          change (bindingEntry (wordAt name _ :: _) _ exported).head? = some found at bound
          unfold bindingEntry at bound
          split at bound
          · rename_i same _operands
            obtain rfl := Option.some.inj bound
            obtain ⟨rfl, _parameters⟩ := List.cons.inj same
            rw [span_wordAt, Site.span, Decl.layout, Layout.extent_node]
            exact (Layout.within_first _ (.all _) _).trans
              ((Layout.within_first _ _ _).trans
                (Layout.within_second (visibilityLayout exported) _ _))
          · cases bound
  | signature name type => cases bound
  | typeDefinition exported name fields => cases bound

theorem pairwise_types (decls : List Decl) :
    (entries decls true "").types.Pairwise fun first second =>
      first.name.span.Before second.name.span := by
  rw [types_entries, List.pairwise_filterMap]
  refine (pairwise_sites [] decls).imp ?_
  intro first second apart earlier firstTyped later secondTyped
  exact apart.of_within (Site.type?_within firstTyped) (Site.type?_within secondTyped)

theorem pairwise_bindings (decls : List Decl) :
    (entries decls true "").bindings.Pairwise fun first second =>
      first.name.span.Before second.name.span := by
  rw [bindings_entries, List.pairwise_filterMap]
  refine (pairwise_sites [] decls).imp ?_
  intro first second apart earlier firstBound later secondBound
  exact apart.of_within (Site.binding?_within firstBound) (Site.binding?_within secondBound)

end Bindery.Source
