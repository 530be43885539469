import Bindery.Proofs.Table.Exports
import Bindery.Proofs.Table.History
import Bindery.Proofs.Text.Lines
import Bindery.Table.Listing

set_option autoImplicit false

/-! The listing of a table has one line for each entry. Only a name could break a line: whatever a
string holds is quoted, and numbers and symbols have no line breaks. A table that was built and then
enlarged lists its imports, types and bindings each once, in the order in which they came. -/

namespace Bindery

open Text

/-! ### Names in texts -/

namespace Expr

mutual

/-- The names in the text of an expression: identifiers and labels. -/
def shownNames : Expr → List String
  | .integer .. | .float .. | .boolean .. | .string .. => []
  | .identifier name _ => [name]
  | .binary left _ right _ => left.shownNames ++ right.shownNames
  | .call callee arguments _ => callee.shownNames ++ shownNamesAll arguments
  | .argument label value _ => label.toList ++ value.shownNames

def shownNamesAll : List Expr → List String
  | [] => []
  | expr :: rest => expr.shownNames ++ shownNamesAll rest

end

mutual

/-- Nothing but a name breaks the text of an expression. -/
theorem unbroken_render : (expr : Expr) →
    (Unbroken expr.render ↔ ∀ name ∈ expr.shownNames, Unbroken name)
  | .integer value _ => by
      simpa [render, shownNames] using unbroken_of_numeric (Number.numeric_writeInteger value)
  | .float value _ => by
      simpa [render, shownNames] using unbroken_of_numeric value.numeric_write
  | .boolean value _ => by simpa [render, shownNames] using unbroken_truth value
  | .string value _ => by simpa [render, shownNames] using unbroken_quote value
  | .identifier name _ => by rw [render, shownNames, List.forall_mem_singleton]
  | .binary left operator right _ => by
      have symbol : Unbroken operator.symbol := by cases operator <;> decide
      have space : Unbroken " " := by decide
      simp only [render, shownNames, unbroken_append, List.forall_mem_append,
        left.unbroken_render, right.unbroken_render, symbol, space, and_true]
  | .call callee arguments _ => by
      have opening : Unbroken "(" := by decide
      have closing : Unbroken ")" := by decide
      simp only [render, shownNames, unbroken_append, List.forall_mem_append,
        unbroken_intercalate (show Unbroken ", " by decide), callee.unbroken_render,
        unbroken_renderAll arguments, opening, closing, and_true]
  | .argument none value _ => by
      rw [render, shownNames, value.unbroken_render]
      rfl
  | .argument (some label) value _ => by
      have colon : Unbroken ": " := by decide
      simp only [render, shownNames, unbroken_append, value.unbroken_render, Option.toList_some,
        List.singleton_append, List.forall_mem_cons, colon, and_true]

theorem unbroken_renderAll : (exprs : List Expr) →
    ((∀ text ∈ renderAll exprs, Unbroken text) ↔ ∀ name ∈ shownNamesAll exprs, Unbroken name)
  | [] => by rw [renderAll, shownNamesAll]
  | expr :: rest => by
      rw [renderAll, shownNamesAll, List.forall_mem_cons, List.forall_mem_append,
        expr.unbroken_render, unbroken_renderAll rest]

end

end Expr

namespace Ty

/-- The name in the text of a type, also of one that is a variable. -/
def shownNames : Ty → List String
  | .named name | .variable name => [name]
  | .void | .int | .float => []

theorem unbroken_render (type : Ty) :
    Unbroken type.render ↔ ∀ name ∈ type.shownNames, Unbroken name := by
  cases type with
  | named name => rw [render, shownNames, List.forall_mem_singleton]
  | «variable» name =>
      have quoteMark : Unbroken "'" := by decide
      rw [render, shownNames, List.forall_mem_singleton, unbroken_append]
      exact and_iff_right quoteMark
  | void | int | float => decide

theorem unbroken_renderSignature (types : List Ty) :
    Unbroken (renderSignature types) ↔ ∀ name ∈ types.flatMap shownNames, Unbroken name := by
  rw [renderSignature, unbroken_intercalate (by decide), List.forall_mem_map,
    List.forall_mem_flatMap]
  exact forall₂_congr fun type _member => type.unbroken_render

end Ty

def Binding.shownNames (binding : Binding) : List String :=
  binding.name :: binding.parameters ++ (binding.signature.getD []).flatMap Ty.shownNames ++
    binding.body.shownNames

def TypeDecl.shownNames (decl : TypeDecl) : List String :=
  decl.name.value :: decl.fields.flatMap fun field =>
    field.name.value :: field.type.value.shownNames

theorem Binding.unbroken_render (binding : Binding) :
    Unbroken binding.render ↔ ∀ name ∈ binding.shownNames, Unbroken name := by
  obtain ⟨name, nameSpan, parameters, body, signature, exported⟩ := binding
  have mark : Unbroken (if exported then "pub " else "") := by
    split <;> decide
  have words : Unbroken (String.join (parameters.map fun parameter => " " ++ parameter)) ↔
      ∀ name ∈ parameters, Unbroken name := by
    have space : Unbroken " " := by decide
    simp only [unbroken_join, List.forall_mem_map, unbroken_append, space, true_and]
  have equals : Unbroken " = " := by decide
  cases signature with
  | none =>
      have nothing : Unbroken "" := by decide
      simp only [render, shownNames, unbroken_append, List.forall_mem_append,
        List.forall_mem_cons, mark, words, nothing, equals, body.unbroken_render,
        Option.getD_none, List.flatMap_nil, List.append_nil, true_and, and_true]
  | some types =>
      have colons : Unbroken " :: " := by decide
      simp only [render, shownNames, unbroken_append, List.forall_mem_append,
        List.forall_mem_cons, mark, words, colons, equals, body.unbroken_render,
        Ty.unbroken_renderSignature, Option.getD_some, true_and, and_true]

theorem TypeDecl.unbroken_render (decl : TypeDecl) :
    Unbroken decl.render ↔ ∀ name ∈ decl.shownNames, Unbroken name := by
  have mark : Unbroken (if decl.exported then "pub " else "") := by
    split <;> decide
  have fields : Unbroken (String.intercalate ", " (decl.fields.map fun field =>
      field.name.value ++ ": " ++ field.type.value.render)) ↔
        ∀ name ∈ decl.fields.flatMap fun field =>
          field.name.value :: field.type.value.shownNames, Unbroken name := by
    have colon : Unbroken ": " := by decide
    rw [unbroken_intercalate (by decide), List.forall_mem_map, List.forall_mem_flatMap]
    apply forall₂_congr
    intro field _member
    rw [unbroken_append, unbroken_append, field.type.value.unbroken_render, List.forall_mem_cons]
    simp only [colon, and_true]
  have keyword : Unbroken "type " := by decide
  have opening : Unbroken " (" := by decide
  have closing : Unbroken ")" := by decide
  simp only [render, shownNames, unbroken_append, List.forall_mem_cons, mark, fields, keyword,
    opening, closing, true_and, and_true]

namespace Table

/-- The names in the listing of a table. -/
def shownNames (table : Table) : List String :=
  table.imports ++ table.types.values.flatMap TypeDecl.shownNames ++
    table.bindings.values.flatMap Binding.shownNames

theorem unbroken_lines (table : Table) :
    (∀ line ∈ table.lines, Unbroken line) ↔ ∀ name ∈ table.shownNames, Unbroken name := by
  have keyword : Unbroken "import " := by decide
  simp only [lines, shownNames, List.forall_mem_append, List.forall_mem_map,
    List.forall_mem_flatMap, unbroken_append, TypeDecl.unbroken_render, Binding.unbroken_render,
    keyword, true_and]

/-! ### Lines and entries -/

theorem imports_apply {table next : Table} {step : Step} (applied : table.apply step = .ok next) :
    next.imports = table.imports ++ step.import?.toList := by
  cases step with
  | bringIn path =>
      obtain rfl := Except.ok.inj applied
      rfl
  | bind decl =>
      obtain ⟨_unbound, rfl⟩ := insertBinding_eq_ok applied
      exact (List.append_nil _).symm
  | sign decl =>
      obtain rfl := insertSignature_eq_ok applied
      exact (List.append_nil _).symm
  | define decl =>
      obtain ⟨_undefined, _reserved, _provided, rfl⟩ := insertType_eq_ok applied
      exact (List.append_nil _).symm

/-- No import is ever refused. -/
theorem import?_of_refused {table : Table} {step : Step}
    (refused : (table.apply step).isOk = false) : step.import? = none := by
  cases step with
  | bringIn path => cases refused
  | bind decl | sign decl | define decl => rfl

theorem imports_run (table : Table) (steps : List Step) :
    (table.run steps).imports = table.imports ++ steps.filterMap Step.import? := by
  induction steps generalizing table with
  | nil => exact (List.append_nil _).symm
  | cons step rest ih =>
      rw [Table.run, List.foldl_cons]
      change (Table.run _ rest).imports = _
      rw [ih, List.filterMap_cons]
      rcases table.attempt_cases step with ⟨next, applied, stepped⟩ | ⟨refused, stepped⟩
      · rw [stepped, imports_apply applied, List.append_assoc]
        cases step.import? <;> rfl
      · rw [stepped, import?_of_refused refused]

/-- The registries of a table are counted by the lines that list them. -/
theorem Consistent.length_lines {table : Table} (consistent : table.Consistent) :
    table.lines.length = table.imports.length + table.types.size + table.bindings.size := by
  rw [lines, List.length_append, List.length_append, List.length_map, List.length_map,
    List.length_map, (consistent.types.listed consistent.typesNamed).counted,
    (consistent.bindings.listed consistent.bindingsNamed).counted]

/-- A table that was built from a program and enlarged by any registrations, of which some may be
refused, is listed as a text of lines: one for each import in order, then one for each type in the
order of definition, then one for each binding in the order of declaration, each as it is signed
now. If no name in the listing breaks a line, then no line is broken, whatever the strings hold; the
lines can be read off the text, and there is one line break for each entry. -/
theorem render_run_by_line {environment : Environment} {program : Program} {start : Table}
    (built : ofProgram environment program = .ok start) (steps : List Step)
    (unbroken : ∀ name ∈ (start.run steps).shownNames, Unbroken name) :
    let table := start.run steps
    let imports := program.imports.map Spanned.value ++ steps.filterMap Step.import?
    let types := program.types ++ (start.succeeded steps).filterMap Step.defined?
    let declared := program.bindings ++ (start.succeeded steps).filterMap Step.bound?
    let lines := imports.map (fun path => "import " ++ path) ++ types.map TypeDecl.render ++
      table.bindings.values.map Binding.render
    let entries := table.imports.length + table.types.size + table.bindings.size
    table.bindings.values.map Binding.unsigned = declared.map Binding.ofDecl ∧
      (∀ binding, binding ∈ table.bindings.values ↔ table.binding binding.name = .ok binding) ∧
      table.render = ofLines lines ∧ (∀ line ∈ lines, Unbroken line) ∧
      table.render.toList.splitOn '\n' = lines.map String.toList ++ [[]] ∧
      lines.length = entries ∧ table.render.toList.count '\n' = entries := by
  obtain ⟨accepted, rfl⟩ := Program.ofProgram_eq_ok_iff.mp built
  intro table imports types declared lines entries
  obtain ⟨consistent, _environment⟩ := accepted.consistent.run steps
  obtain ⟨bindingsRun, typesRun⟩ := accepted.consistent.values_run steps
  have bindingsStart : (program.table environment).bindings.values = _ :=
    Program.values_bindingEntries accepted.bindingsDistinct program.signatures
  have typesStart : (program.table environment).types.values = program.types :=
    Program.values_typeEntries accepted.typesDistinct
  have listed : table.lines = lines := by
    change (Table.run _ steps).imports.map _ ++ (Table.run _ steps).types.values.map _ ++ _ = _
    rw [imports_run, typesRun, typesStart]
    rfl
  have within : ∀ line ∈ lines, Unbroken line := listed ▸ table.unbroken_lines.mpr unbroken
  have size : lines.length = entries := listed ▸ consistent.length_lines
  have text : table.render = ofLines lines := listed ▸ rfl
  refine ⟨?_, ?_, text, within, ?_, size, ?_⟩
  · rw [bindingsRun, bindingsStart, List.map_append, List.map_map]
    rfl
  · intro binding
    rw [(consistent.bindings.listed consistent.bindingsNamed).every, binding_eq_ok_iff]
  · rw [text, splitOn_ofLines within]
  · rw [text, count_newline_ofLines within, size]

-- A table to which nothing was given yet is the table of the program without declarations.
example (environment : Environment) : ofProgram environment .empty = .ok (.empty environment) := rfl

def sampleListed : Program where
  imports := [⟨"std::io", ⟨7, 14⟩⟩]
  bindings := [⟨⟨"greeting", ⟨15, 23⟩⟩, [], .string "hello\nworld\"" ⟨26, 41⟩, true⟩]
  signatures := [⟨⟨"greeting", ⟨42, 50⟩⟩, [⟨.named "string", ⟨54, 60⟩⟩]⟩]
  types := [⟨⟨"Point", ⟨66, 71⟩⟩, [⟨⟨"x", ⟨73, 74⟩⟩, ⟨.float, ⟨76, 79⟩⟩⟩], false⟩]

/-- The second binding is refused, and the last one calls a function with a label. -/
def sampleEnlargement : List Step := [
  .bind ⟨⟨"greeting", ⟨0, 8⟩⟩, [], .integer 1 ⟨11, 12⟩, false⟩,
  .bringIn "std::io",
  .bind ⟨⟨"shout", ⟨13, 18⟩⟩, ["x"],
    .call (.identifier "print" ⟨23, 28⟩)
      [.argument (some "text") (.identifier "x" ⟨35, 36⟩) ⟨29, 36⟩] ⟨23, 37⟩, false⟩]

theorem render_run_by_line_sample :
    ∃ start, ofProgram .prelude sampleListed = .ok start ∧
      (∀ name ∈ (start.run sampleEnlargement).shownNames, Unbroken name) ∧
      (start.run sampleEnlargement).render =
        "import std::io\nimport std::io\ntype Point (x: f64)\n" ++
          "pub greeting :: string = \"hello\\nworld\\\"\"\nshout x = print(text: x)\n" ∧
      (start.run sampleEnlargement).render.toList.count '\n' = 5 := by
  have built : ofProgram .prelude sampleListed = .ok (sampleListed.table .prelude) := rfl
  have unbroken : ∀ name ∈ ((sampleListed.table .prelude).run sampleEnlargement).shownNames,
      Unbroken name := by decide
  obtain ⟨_bindings, _every, text, _within, _lines, _size, count⟩ :=
    render_run_by_line built sampleEnlargement unbroken
  exact ⟨_, built, unbroken, text.trans (by decide), count.trans (by decide)⟩

end Table

end Bindery
