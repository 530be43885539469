import Bindery.Proofs.Collection.Placement
import Bindery.Proofs.Source.KnownOperators
import Bindery.Proofs.Source.Spelling

set_option autoImplicit false

/-! The places in the program of a source. Every declaration adds entries that point into its own
text, and a source is built declaration by declaration, so all places of its program point at what
was written there. -/

namespace Bindery

namespace Source

def Decl.body? : Decl → Option Term
  | .binding _ _ body => body
  | _ => none

def Decl.signatureType? : Decl → Option TypeExpr
  | .signature _ type => some type
  | _ => none

def Decl.fieldTypes? : Decl → Option (List TypeExpr)
  | .typeDefinition _ _ fields => some (fields.map Prod.snd)
  | _ => none

end Source

open Source

/-- A program whose places, names apart, point at what declarations have written there. -/
structure Program.PlacedAs (text : String) (decls : List Decl) (program : Program) : Prop where
  imports : ∀ path ∈ program.imports, path.WrittenIn text
  bodies : List.Forall₂ (Term.PlacedAs text) (decls.filterMap Decl.body?)
    (program.bindings.map BindingDecl.body)
  signatures : List.Forall₂
    (fun type (decl : SignatureDecl) =>
      List.Forall₂ (FragmentAt text) type.writings decl.fragments)
    (decls.filterMap Decl.signatureType?) program.signatures
  fields : List.Forall₂
    (fun types (decl : TypeDecl) =>
      List.Forall₂ (FragmentAt text) (types.flatMap TypeExpr.writings)
        (decl.fields.map Field.type))
    (decls.filterMap Decl.fieldTypes?) program.types

theorem Program.PlacedAs.empty (text : String) : Program.empty.PlacedAs text [] :=
  ⟨List.forall_mem_nil _, .nil, .nil, .nil⟩

theorem Program.PlacedAs.append {text : String} {decls others : List Decl}
    {first second : Program} (firstPlaced : first.PlacedAs text decls)
    (secondPlaced : second.PlacedAs text others) :
    (first.append second).PlacedAs text (decls ++ others) := by
  constructor
  · rw [Program.append, List.forall_mem_append]
    exact ⟨firstPlaced.imports, secondPlaced.imports⟩
  · rw [Program.append, List.map_append, List.filterMap_append]
    exact List.rel_append firstPlaced.bodies secondPlaced.bodies
  · rw [List.filterMap_append]
    exact List.rel_append firstPlaced.signatures secondPlaced.signatures
  · rw [List.filterMap_append]
    exact List.rel_append firstPlaced.fields secondPlaced.fields

namespace Source

open Syntax Text

variable {text before : String}

theorem types_fieldEntry {field : String × TypeExpr} (fine : fieldFaults field before = []) :
    (fieldEntry field before).map Field.type =
      field.2.fragments (fieldTypeStart field.1 before) := by
  unfold fieldFaults at fine
  unfold fieldEntry
  rcases fragments : field.2.fragments (fieldTypeStart field.1 before) with
    _ | ⟨type, _ | ⟨second, more⟩⟩
  · rfl
  · rfl
  · rw [fragments] at fine
    cases fine

theorem types_fieldEntries (fields : List (String × TypeExpr)) (isFirst : Bool)
    (before : String) (fine : fieldsFaults fields isFirst before = [])
    (begins : BeginsWith text ((fieldsLayout fields isFirst).after before)) :
    List.Forall₂ (FragmentAt text) ((fields.map Prod.snd).flatMap TypeExpr.writings)
      ((fieldEntries fields isFirst before).map Field.type) := by
  induction fields generalizing isFirst before with
  | nil => exact .nil
  | cons field rest ih =>
      rw [fieldsFaults, List.append_eq_nil_iff] at fine
      rw [after_fields] at begins
      have own := Layout.begins_before begins
      rw [Layout.after_node, after_field] at own
      rw [List.map_cons, List.flatMap_cons, fieldEntries, List.map_append,
        types_fieldEntry fine.1]
      exact List.rel_append (field.2.fragments_at _ own) (ih false _ fine.2 begins)

/-- A binding without a fault has a name and a body, and the body points at its term. -/
theorem placed_binding {exported : Bool} {identifiers : List String} {body : Option Term}
    (known : (Decl.binding exported identifiers body).operatorsKnown = true)
    (fine : (Decl.binding exported identifiers body).faults before = [])
    (begins : BeginsWith text ((Decl.binding exported identifiers body).layout.after before)) :
    ((Decl.binding exported identifiers body).entries before).PlacedAs text
      [.binding exported identifiers body] := by
  rw [Decl.faults, List.append_eq_nil_iff] at fine
  have complete := fine.2
  cases identifiers with
  | nil => cases complete
  | cons name parameters =>
      cases body with
      | none => cases complete
      | some term =>
          rw [after_binding] at begins
          obtain ⟨expr, leaves⟩ := term.leaves _ [] known begins
          refine ⟨List.forall_mem_nil _, ?_, .nil, .nil⟩
          change List.Forall₂ _ [term]
            ((bindingEntry _ (term.operandsAfter _ []) exported).map BindingDecl.body)
          rw [leaves.operands]
          exact .cons leaves.placed .nil

theorem Decl.placed (decl : Decl) (known : decl.operatorsKnown = true)
    (fine : decl.faults before = []) (begins : BeginsWith text (decl.layout.after before)) :
    (decl.entries before).PlacedAs text [decl] := by
  cases decl with
  | bringIn path =>
      rw [Decl.layout, Layout.after_node, Decl.content, Layout.after_next,
        Layout.after_node] at begins
      refine ⟨?_, .nil, .nil, .nil⟩
      rw [Decl.entries, List.forall_mem_singleton]
      exact slice_path begins
  | binding exported identifiers body => exact placed_binding known fine begins
  | signature name type =>
      rw [after_signature] at begins
      exact ⟨List.forall_mem_nil _, .nil, .cons (type.fragments_at _ begins) .nil, .nil⟩
  | typeDefinition exported name fields =>
      rw [after_typeDefinition] at begins
      refine ⟨List.forall_mem_nil _, .nil, .nil, .cons ?_ .nil⟩
      exact types_fieldEntries fields true _ fine (Layout.begins_before begins)

theorem placed_entries (decls : List Decl) (isFirst : Bool) (before : String)
    (known : ∀ decl ∈ decls, decl.operatorsKnown = true)
    (fine : faults decls isFirst before = [])
    (begins : BeginsWith text ((declsLayout decls isFirst).after before)) :
    (entries decls isFirst before).PlacedAs text decls := by
  induction decls generalizing isFirst before with
  | nil => exact .empty text
  | cons decl rest ih =>
      rw [List.forall_mem_cons] at known
      rw [faults, List.append_eq_nil_iff] at fine
      rw [declsLayout, Layout.after_next, Layout.after_next] at begins
      have own := Layout.begins_before begins
      exact (decl.placed known.1 fine.1 own).append (ih false _ known.2 fine.2 begins)

/-- Every place in the program of a source points at its own text. Names, paths and fragments are
found at theirs, and so are the tokens of literals and identifiers, the quotes of a string
included. An expression with parts covers them in the order in which they are written. -/
theorem spans_point_at_text (decls : List Decl)
    (known : ∀ decl ∈ decls, decl.operatorsKnown = true) :
    ∃ text tree, render decls = .ok (text, tree) ∧
      ∀ program, Program.ofTree tree = .ok program →
        (∀ span ∈ program.spans, span.Inside text) ∧
          (∀ name ∈ program.names, Text.slice text name.span = some name.value) ∧
            program.PlacedAs text decls := by
  refine ⟨(tree decls).text, tree decls, render_eq decls, ?_⟩
  intro program built
  obtain ⟨inside, written⟩ := Program.standsIn_of_ofTree built
  refine ⟨inside, written, ?_⟩
  rw [ofTree_tree] at built
  split at built
  · rename_i fine
    obtain rfl := Except.ok.inj built
    have whole : (declsLayout decls true).after "" = (tree decls).text := String.empty_append
    apply placed_entries decls true "" known (List.isEmpty_iff.mp fine)
    rw [whole]
    exact .whole _
  · cases built

theorem spans_point_at_text_sample :
    (∀ decl ∈ sampleSource, decl.operatorsKnown = true) ∧
      ∃ text tree program, render sampleSource = .ok (text, tree) ∧
        Program.ofTree tree = .ok program ∧ program.bindings.length = 1 ∧
          (∀ span ∈ program.spans, span.Inside text) ∧
            (∀ name ∈ program.names, Text.slice text name.span = some name.value) ∧
              program.PlacedAs text sampleSource := by
  have known : ∀ decl ∈ sampleSource, decl.operatorsKnown = true := by decide
  have fine : faults sampleSource true "" = [] := by
    rw [← List.map_eq_nil_iff, unplaced_faults]
    rfl
  obtain ⟨text, tree, rendered, pointed⟩ := spans_point_at_text sampleSource known
  have built : Program.ofTree tree = .ok (entries sampleSource true "") := by
    rw [render_eq] at rendered
    cases rendered
    rw [ofTree_tree, fine]
    rfl
  exact ⟨known, text, tree, _, rendered, built, rfl, pointed _ built⟩

end Source

end Bindery
