import Bindery.Proofs.Compilation
import Bindery.Proofs.Source.Collected
import Bindery.Proofs.Table.Reordering

set_option autoImplicit false

/-! The order of declarations in a source. Declarations may change places, also with declarations of
another kind, as long as the signatures of every name keep their order: the unit has a table in both
cases or in none, and no look-up can tell the tables apart except by places. -/

namespace Bindery.Source

def Decl.isImport : Decl → Bool
  | .bringIn _ => true
  | _ => false

def Decl.isBinding : Decl → Bool
  | .binding .. => true
  | _ => false

def Decl.isTypeDefinition : Decl → Bool
  | .typeDefinition .. => true
  | _ => false

def Decl.signs (name : String) : Decl → Bool
  | .signature signed _ => signed = name
  | _ => false

/-! ### The declarations of one kind -/

/-- A choice that is made among some items only can be made after leaving out the others. -/
theorem filterMap_of_filter {α β : Type} (choose : α → Option β) (keep : α → Bool)
    (outside : ∀ item, keep item = false → choose item = none) (items : List α) :
    (items.filter keep).filterMap choose = items.filterMap choose := by
  rw [List.filterMap_filter]
  congr 1
  funext item
  cases kept : keep item with
  | false => exact (outside item kept).symm
  | true => rfl

theorem filterMap_import (decls : List Decl) :
    (decls.filter Decl.isImport).filterMap Decl.import? = decls.filterMap Decl.import? := by
  apply filterMap_of_filter
  intro decl outside
  cases decl with
  | bringIn path => cases outside
  | binding | signature | typeDefinition => rfl

theorem filterMap_binding (bodyOf : Term → Option Expr) (decls : List Decl) :
    (decls.filter Decl.isBinding).filterMap (Decl.binding? bodyOf) =
      decls.filterMap (Decl.binding? bodyOf) := by
  apply filterMap_of_filter
  intro decl outside
  cases decl with
  | binding exported identifiers body => cases outside
  | bringIn | signature | typeDefinition => rfl

theorem filterMap_type (decls : List Decl) :
    (decls.filter Decl.isTypeDefinition).filterMap Decl.type? = decls.filterMap Decl.type? := by
  apply filterMap_of_filter
  intro decl outside
  cases decl with
  | typeDefinition exported name fields => cases outside
  | bringIn | binding | signature => rfl

theorem filterMap_signature (name : String) (decls : List Decl) :
    (decls.filterMap Decl.signature?).filter (fun decl => decl.name.value = name) =
      (decls.filter (Decl.signs name)).filterMap Decl.signature? := by
  rw [List.filter_filterMap, List.filterMap_filter]
  congr 1
  funext decl
  cases decl with
  | signature signed type =>
      by_cases same : signed = name
      · simp [Decl.signature?, Decl.signs, nameOf, same, Option.filter]
      · simp [Decl.signature?, Decl.signs, nameOf, same, Option.filter]
  | bringIn | binding | typeDefinition => rfl

variable {decls other : List Decl}

theorem declared_reordered (bodyOf : Term → Option Expr) (perm : decls.Perm other)
    (signatures : ∀ name, decls.filter (Decl.signs name) = other.filter (Decl.signs name)) :
    (declared bodyOf decls).Reordered (declared bodyOf other) where
  imports := perm.filterMap _
  bindings := perm.filterMap _
  signatures := perm.filterMap _
  types := perm.filterMap _
  signaturesOf name := by
    change (decls.filterMap Decl.signature?).filter _ = (other.filterMap Decl.signature?).filter _
    rw [filterMap_signature, filterMap_signature, signatures]

/-! ### When a source has a table -/

/-- Nothing is wrong with the declarations one by one, nor with what they declare together. -/
structure Compiles (environment : Environment) (decls : List Decl) : Prop where
  read : decls.flatMap (Decl.problems Term.lastOperand?) = []
  accepted : (declared Term.lastOperand? decls).Accepted environment

theorem Compiles.table {environment : Environment} (compiles : Compiles environment decls) :
    ∃ program : Program, program.unplaced = declared Term.lastOperand? decls ∧
      program.Accepted environment ∧
        (Table.ofTree environment (tree decls)).toOption = some (program.table environment) := by
  obtain ⟨program, read, declares⟩ := ofTree_tree_of_no_problems decls compiles.read
  have accepted : program.Accepted environment := by
    rw [← Program.accepted_unplaced, declares]
    exact compiles.accepted
  refine ⟨program, declares, accepted, ?_⟩
  simp only [Table.ofTree, read, Program.ofProgram_of_accepted environment program accepted]
  rfl

theorem toOption_ofTree_of_not_compiles (environment : Environment) (decls : List Decl)
    (refused : ¬ Compiles environment decls) :
    (Table.ofTree environment (tree decls)).toOption = none := by
  by_cases fine : decls.flatMap (Decl.problems Term.lastOperand?) = []
  · obtain ⟨program, read, declares⟩ := ofTree_tree_of_no_problems decls fine
    have notAccepted : ¬ program.Accepted environment := by
      rw [← Program.accepted_unplaced, declares]
      exact fun accepted => refused ⟨fine, accepted⟩
    obtain ⟨error, _first, stopped⟩ :=
      Program.ofProgram_of_not_accepted environment program notAccepted
    simp only [Table.ofTree, read, stopped]
    rfl
  · obtain ⟨errors, read⟩ := ofTree_tree_of_problems decls fine
    rw [Table.ofTree, read]
    rfl

theorem Compiles.reordered {environment : Environment} (compiles : Compiles environment decls)
    (perm : decls.Perm other)
    (signatures : ∀ name, decls.filter (Decl.signs name) = other.filter (Decl.signs name)) :
    Compiles environment other where
  read := by
    have problemsPerm := perm.flatMap_right (Decl.problems Term.lastOperand?)
    rw [compiles.read] at problemsPerm
    exact List.nil_perm.mp problemsPerm
  accepted := (declared_reordered _ perm signatures).accepted compiles.accepted

/-! ### Compiling a source in another order -/

/-- The tables of a source in two orders: the same answers, the same entries, and the entries of one
kind in the same order if the declarations of that kind are. -/
structure TablesAgree (decls other : List Decl) (table otherTable : Table) : Prop where
  answers : table.SameAnswers otherTable
  imports : table.imports.Perm otherTable.imports
  bindings : (table.bindings.values.map Binding.unplaced).Perm
    (otherTable.bindings.values.map Binding.unplaced)
  types : (table.types.values.map TypeDecl.unplaced).Perm
    (otherTable.types.values.map TypeDecl.unplaced)
  importsInOrder : decls.filter Decl.isImport = other.filter Decl.isImport →
    table.imports = otherTable.imports
  bindingsInOrder : decls.filter Decl.isBinding = other.filter Decl.isBinding →
    table.bindings.values.map Binding.unplaced = otherTable.bindings.values.map Binding.unplaced
  typesInOrder : decls.filter Decl.isTypeDefinition = other.filter Decl.isTypeDefinition →
    table.types.values.map TypeDecl.unplaced = otherTable.types.values.map TypeDecl.unplaced

theorem tablesAgree_of_reordered (environment : Environment) (program otherProgram : Program)
    (declares : program.unplaced = declared Term.lastOperand? decls)
    (otherDeclares : otherProgram.unplaced = declared Term.lastOperand? other)
    (reordered : program.unplaced.Reordered otherProgram.unplaced)
    (accepted : program.Accepted environment) (otherAccepted : otherProgram.Accepted environment) :
    TablesAgree decls other (program.table environment) (otherProgram.table environment) where
  answers := reordered.sameAnswers accepted
  imports := by
    rw [Program.imports_unplaced, Program.imports_unplaced]
    exact reordered.imports.map _
  bindings := by
    rw [Program.values_unplaced_bindings accepted,
      Program.values_unplaced_bindings otherAccepted, reordered.signedBinding_eq]
    exact reordered.bindings.map _
  types := by
    rw [Program.values_unplaced_types accepted, Program.values_unplaced_types otherAccepted]
    exact reordered.types
  importsInOrder inOrder := by
    rw [Program.imports_unplaced, Program.imports_unplaced, declares, otherDeclares, declared,
      declared, ← filterMap_import decls, inOrder, filterMap_import]
  bindingsInOrder inOrder := by
    rw [Program.values_unplaced_bindings accepted,
      Program.values_unplaced_bindings otherAccepted, reordered.signedBinding_eq, declares,
      otherDeclares, declared, declared, ← filterMap_binding _ decls, inOrder, filterMap_binding]
  typesInOrder inOrder := by
    rw [Program.values_unplaced_types accepted, Program.values_unplaced_types otherAccepted,
      declares, otherDeclares, declared, declared, ← filterMap_type decls, inOrder, filterMap_type]

/-- A source may be compiled with its declarations in any order that keeps the signatures of every
name in theirs: either both units have tables, and these agree, or the source cannot be compiled. -/
theorem compile_reordered (configuration : Configuration) (before after : List SourceUnit)
    (unitName : String) (decls other : List Decl) (perm : decls.Perm other)
    (signatures : ∀ name, decls.filter (Decl.signs name) = other.filter (Decl.signs name)) :
    ∃ text tree otherText otherTree,
      render decls = .ok (text, tree) ∧ render other = .ok (otherText, otherTree) ∧
        match Compilation.tableAmong configuration before ⟨unitName, text, tree⟩ after,
          Compilation.tableAmong configuration before ⟨unitName, otherText, otherTree⟩ after with
        | some table, some otherTable => TablesAgree decls other table otherTable
        | none, none => ¬ Compiles configuration.environment decls
        | _, _ => False := by
  refine ⟨_, _, _, _, render_eq decls, render_eq other, ?_⟩
  rw [Compilation.tableAmong_eq, Compilation.tableAmong_eq]
  by_cases compiles : Compiles configuration.environment decls
  · obtain ⟨program, declares, accepted, found⟩ := compiles.table
    obtain ⟨otherProgram, otherDeclares, otherAccepted, otherFound⟩ :=
      (compiles.reordered perm signatures).table
    have reordered : program.unplaced.Reordered otherProgram.unplaced := by
      rw [declares, otherDeclares]
      exact declared_reordered _ perm signatures
    rw [found, otherFound]
    exact tablesAgree_of_reordered _ program otherProgram declares otherDeclares reordered
      accepted otherAccepted
  · have otherRefused : ¬ Compiles configuration.environment other :=
      fun otherCompiles => compiles
        (otherCompiles.reordered perm.symm fun name => (signatures name).symm)
    rw [toOption_ofTree_of_not_compiles _ decls compiles,
      toOption_ofTree_of_not_compiles _ other otherRefused]
    exact compiles

def sampleSignatures : List Decl :=
  [.signature "f" (.named "Point"), .signature "f" (.arrow [.named "int", .named "Point"])]

def sampleDefinitions : List Decl :=
  [.bringIn "std::io", .binding true ["f", "x"] (some (.identifier "x")),
    .typeDefinition false "Point" [("x", .named "int")]]

theorem compile_sample_reordered :
    let decls := sampleSignatures ++ sampleDefinitions
    let other := sampleDefinitions ++ sampleSignatures
    Compiles Environment.prelude decls ∧ decls.Perm other ∧
      (∀ name, decls.filter (Decl.signs name) = other.filter (Decl.signs name)) ∧
      ∃ text tree otherText otherTree,
        render decls = .ok (text, tree) ∧ render other = .ok (otherText, otherTree) ∧
          match Compilation.tableAmong {} [] ⟨"main", text, tree⟩ [],
            Compilation.tableAmong {} [] ⟨"main", otherText, otherTree⟩ [] with
          | some table, some otherTable => TablesAgree decls other table otherTable
          | none, none => ¬ Compiles Environment.prelude decls
          | _, _ => False :=
  ⟨⟨rfl, (Program.faults_eq_nil_iff _ _).mp rfl⟩, List.perm_append_comm, fun _ => rfl,
    compile_reordered {} [] [] "main" _ _ List.perm_append_comm fun _ => rfl⟩

end Bindery.Source
