import Bindery.Diagnostic.Log
import Bindery.Program.Collection
import Bindery.Table

set_option autoImplicit false

/-! Compiling units. Every unit gets a table of its own; a unit with an error is reported and has
none, and the others are compiled all the same. -/

namespace Bindery

/-- A unit as it comes in: its name, its text and the tree that was read from it. -/
structure SourceUnit where
  name : String
  text : String
  tree : Syntax.Tree
  deriving Repr

structure CompiledUnit where
  source : SourceUnit
  /-- The number of the unit's file among the reports. -/
  file : Nat
  table : Option Table

/-- The table of a tree, or every error in its declarations, or the first error in their meaning. -/
def Table.ofTree (environment : Environment) (tree : Syntax.Tree) :
    Except (List SemanticError) Table :=
  match Program.ofTree tree with
  | .error errors => .error errors
  | .ok program =>
      match Table.ofProgram environment program with
      | .error error => .error [error]
      | .ok table => .ok table

structure Compilation where
  units : List CompiledUnit
  log : DiagnosticLog

namespace Compilation

def empty : Compilation := ⟨[], .empty⟩

def add (environment : Environment) (compilation : Compilation) (unit : SourceUnit) :
    Compilation :=
  let (file, log) := compilation.log.addFile unit.name unit.text
  match Table.ofTree environment unit.tree with
  | .ok table => ⟨compilation.units ++ [⟨unit, file, some table⟩], log⟩
  | .error errors =>
      ⟨compilation.units ++ [⟨unit, file, none⟩],
        errors.foldl (fun log error => log.raise error.diagnostic file) log⟩

def build (configuration : Configuration) (units : List SourceUnit) : Compilation :=
  units.foldl (add configuration.environment) empty

def unit? (compilation : Compilation) (name : String) : Option CompiledUnit :=
  compilation.units.find? fun unit => unit.source.name = name

/-- The table of a unit that exists and was compiled without an error. -/
def table? (compilation : Compilation) (name : String) : Option Table :=
  (compilation.unit? name).bind CompiledUnit.table

def hasErrors (compilation : Compilation) : Bool := compilation.log.hasErrors

end Compilation

end Bindery
