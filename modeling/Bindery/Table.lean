import Bindery.Environment
import Bindery.Program
import Bindery.Registry

set_option autoImplicit false

/-! The binding table of a compilation unit: its imports, bindings and type definitions over an
environment. The first definition of a name stays; a definition that is refused leaves the table as
it was. A signature is attached to a binding that exists, in place of any earlier one.

`Table.ofProgram` registers type definitions, imports, bindings and signatures in this order, so the
order of declarations of different kinds does not matter. -/

namespace Bindery

/-- A name with its definition. The signature is absent until one is attached. -/
structure Binding where
  name : String
  nameSpan : Span
  parameters : List String
  body : Expr
  signature : Option (List Ty)
  exported : Bool
  deriving Repr

namespace Binding

def ofDecl (decl : BindingDecl) : Binding where
  name := decl.name.value
  nameSpan := decl.name.span
  parameters := decl.parameters
  body := decl.body
  signature := none
  exported := decl.exported

def resultType? (binding : Binding) : Option Ty := binding.signature.bind List.getLast?

end Binding

structure Table where
  imports : List String
  bindings : Registry Binding
  types : Registry TypeDecl
  environment : Environment

namespace Table

def empty (environment : Environment) : Table := ⟨[], .empty, .empty, environment⟩

/-- Whether a type name is provided by the environment or defined in the unit. -/
def knowsType (table : Table) (name : String) : Bool :=
  table.environment.contains name || table.types.contains name

/-- Whether a type can be used here, with the error otherwise. -/
def checkType (table : Table) (type : Spanned Ty) : Except SemanticError Unit :=
  match type.value.reference? with
  | some name => if table.knowsType name then .ok () else .error (.unknownType name type.span)
  | none => .ok ()

/-- Imports may be repeated. -/
def insertImport (table : Table) (path : String) : Table :=
  { table with imports := table.imports ++ [path] }

def insertBinding (table : Table) (decl : BindingDecl) : Except SemanticError Table :=
  match table.bindings.find? decl.name.value with
  | some existing => .error (.bindingExists decl.name.value decl.name.span existing.nameSpan)
  | none => .ok { table with bindings := table.bindings.add decl.name.value (.ofDecl decl) }

/-- Attaches a signature. The binding is looked for first, then the types are checked in order. -/
def insertSignature (table : Table) (decl : SignatureDecl) : Except SemanticError Table :=
  match table.bindings.find? decl.name.value with
  | none => .error (.noSuchBinding decl.name.value (some decl.name.span))
  | some _ => do
      decl.fragments.forM table.checkType
      let signature := decl.fragments.map Spanned.value
      return { table with
        bindings := table.bindings.modify decl.name.value fun binding =>
          { binding with signature := some signature } }

/-- Defines a type. A name with a type of its own can never be defined, whether the environment
provides it or not. -/
def insertType (table : Table) (decl : TypeDecl) : Except SemanticError Table :=
  let name := decl.name
  match table.types.find? name.value with
  | some existing => .error (.typeExists name.value name.span (some existing.name.span))
  | none =>
      if (Ty.ofName name.value).reference?.isNone || table.environment.contains name.value then
        .error (.typeExists name.value name.span none)
      else .ok { table with types := table.types.add name.value decl }

def checkFields (table : Table) : Except SemanticError Unit :=
  (table.types.values.flatMap TypeDecl.fields).forM fun field => table.checkType field.type

/-- Registers all declarations of a program; the first failure ends the attempt. The fields are
checked when every type is known, and every binding exists before the first signature is
attached. -/
def ofProgram (environment : Environment) (program : Program) : Except SemanticError Table := do
  let typed ← program.types.foldlM insertType (empty environment)
  typed.checkFields
  let imported := program.imports.foldl (fun table path => table.insertImport path.value) typed
  let bound ← program.bindings.foldlM insertBinding imported
  program.signatures.foldlM insertSignature bound

def binding (table : Table) (name : String) : Except SemanticError Binding :=
  match table.bindings.find? name with
  | some binding => .ok binding
  | none => .error (.noSuchBinding name none)

def exportedBinding (table : Table) (name : String) : Except SemanticError Binding :=
  match (table.bindings.find? name).filter Binding.exported with
  | some binding => .ok binding
  | none => .error (.notExported name)

def typeDecl (table : Table) (name : String) : Except SemanticError TypeDecl :=
  match table.types.find? name with
  | some decl => .ok decl
  | none => .error (.noSuchType name)

/-- The bindings that other units see, in the order of definition. -/
def exports (table : Table) : List Binding := table.bindings.values.filter Binding.exported

inductive Step where
  | bringIn (path : String)
  | bind (decl : BindingDecl)
  | sign (decl : SignatureDecl)
  | define (decl : TypeDecl)
  deriving Repr

def apply (table : Table) : Step → Except SemanticError Table
  | .bringIn path => .ok (table.insertImport path)
  | .bind decl => table.insertBinding decl
  | .sign decl => table.insertSignature decl
  | .define decl => table.insertType decl

/-- The table after a registration, which is the table before it if that was refused. -/
def attempt (table : Table) (step : Step) : Table :=
  match table.apply step with
  | .ok next => next
  | .error _ => table

/-- The table after a run of registrations, of which any may be refused. -/
def run (table : Table) (steps : List Step) : Table := steps.foldl attempt table

/-- A registration that is refused leaves no trace. -/
theorem attempt_of_error {table : Table} {step : Step} {error : SemanticError}
    (refused : table.apply step = .error error) : table.attempt step = table := by
  rw [attempt, refused]

end Table

end Bindery
