import Bindery.Compilation
import Bindery.Source.Draft

set_option autoImplicit false

/-! Expectations about a compilation, checked one by one, and what is said about one that is not
met. An expectation about a table looks at the first unit unless it names another. -/

namespace Bindery

/-- What a binding should be like. -/
inductive Property where
  | parameters (names : List String)
  | signature (text : String)
  | unsigned
  | exported (value : Bool)
  | body (text : String)
  | calls (names : List String)
  deriving Repr

inductive Expectation where
  | compiles
  | fails
  | hasError (part : String)
  | hasErrorCount (count : Nat)
  | unitBuilds (unit : String) (builds : Bool)
  | noBinding (name : String)
  | dependencies (paths : List String)
  | exportLookup (name : String) (found : Bool) (unit : Option String)
  | typeDefined (name : String) (fields : List (String × String)) (exported : Option Bool)
  | binding (name : String) (unit : Option String) (properties : List Property)
  deriving Repr

/-- How an expectation was not met. -/
inductive Mismatch where
  | errors (count : Nat) (messages : List String)
  | noError
  | otherErrors (part : String) (messages : List String)
  | errorCount (expected actual : Nat)
  | succeeded
  | unitMissing (name : String)
  | noUnits
  | tableMissing (unit : String)
  | unitFailed (name : String)
  | unitBuilt (name : String)
  | bindingMissing (name : String) (error : SemanticError)
  | parameters (binding : String) (actual expected : List String)
  | signature (binding : String) (actual : Option String) (expected : String)
  | signed (binding : String) (actual : String)
  | bindingExported (binding : String) (actual expected : Bool)
  | body (binding actual expected : String)
  | calls (binding : String) (actual expected : List String)
  | bindingFound (name : String)
  | exportMissing (name : String) (error : SemanticError)
  | exportFound (name : String)
  | dependencies (expected actual : List String)
  | typeMissing (name : String) (error : SemanticError)
  | fieldMissing (type field : String)
  | fieldType (type field actual expected : String)
  | typeExported (name : String) (actual expected : Bool)
  deriving Repr

namespace Mismatch

def message : Mismatch → String
  | .errors count messages =>
      "Expected compilation to succeed, but got " ++ toString count ++ " error(s): " ++
        Text.quoteList messages
  | .noError => "Expected compilation to fail with an error, but it succeeded"
  | .otherErrors part messages =>
      "Expected an error containing '" ++ part ++ "', but got: " ++ Text.quoteList messages
  | .errorCount expected actual =>
      "Expected " ++ toString expected ++ " error(s), but got " ++ toString actual
  | .succeeded => "Expected compilation to fail, but it succeeded"
  | .unitMissing name => "Unit '" ++ name ++ "' not found"
  | .noUnits => "Test has no units"
  | .tableMissing unit => "Unit '" ++ unit ++ "' has no binding table"
  | .unitFailed name => "Expected unit '" ++ name ++ "' to build"
  | .unitBuilt name => "Expected unit '" ++ name ++ "' to fail"
  | .bindingMissing name error => "Binding '" ++ name ++ "' not found: " ++ error.message
  | .parameters binding actual expected =>
      "Binding '" ++ binding ++ "' has params " ++ Text.quoteList actual ++ ", expected " ++
        Text.quoteList expected
  | .signature binding actual expected =>
      "Binding '" ++ binding ++ "' has signature " ++ Text.quoteOption actual ++ ", expected " ++
        Text.quote expected
  | .signed binding actual =>
      "Binding '" ++ binding ++ "' has signature '" ++ actual ++ "', expected none"
  | .bindingExported binding actual expected =>
      "Binding '" ++ binding ++ "' has export = " ++ Text.truth actual ++ ", expected " ++
        Text.truth expected
  | .body binding actual expected =>
      "Binding '" ++ binding ++ "' has body '" ++ actual ++ "', expected '" ++ expected ++ "'"
  | .calls binding actual expected =>
      "Binding '" ++ binding ++ "' calls " ++ Text.quoteList actual ++ ", expected " ++
        Text.quoteList expected
  | .bindingFound name => "Expected no binding '" ++ name ++ "', but found one"
  | .exportMissing name error => "Expected export '" ++ name ++ "': " ++ error.message
  | .exportFound name => "Expected '" ++ name ++ "' not to be exported, but it was"
  | .dependencies expected actual =>
      "Expected dependencies " ++ Text.quoteList expected ++ ", got " ++ Text.quoteList actual
  | .typeMissing name error => "Type '" ++ name ++ "' not found: " ++ error.message
  | .fieldMissing type field => "Type '" ++ type ++ "' has no field '" ++ field ++ "'"
  | .fieldType type field actual expected =>
      "Field '" ++ type ++ "." ++ field ++ "' has type '" ++ actual ++ "', expected '" ++
        expected ++ "'"
  | .typeExported name actual expected =>
      "Type '" ++ name ++ "' has export = " ++ Text.truth actual ++ ", expected " ++
        Text.truth expected

/-- The last words of a test that meets the mismatch. -/
def report (mismatch : Mismatch) : String := "Expectation failed: " ++ mismatch.message

end Mismatch

def occursIn (part : List Char) : List Char → Bool
  | [] => part.isEmpty
  | c :: rest => part.isPrefixOf (c :: rest) || occursIn part rest

/-- The table of a unit, or of the first unit. -/
def Compilation.tableOf (compilation : Compilation) (name : Option String) :
    Except Mismatch Table := do
  let unit ← match name with
    | some name =>
        match compilation.unit? name with
        | some unit => pure unit
        | none => throw (.unitMissing name)
    | none =>
        match compilation.units.head? with
        | some unit => pure unit
        | none => throw .noUnits
  match unit.table with
  | some table => return table
  | none => throw (.tableMissing unit.source.name)

/-- The error `mismatch` unless the condition holds. -/
def expect (condition : Bool) (mismatch : Mismatch) : Except Mismatch Unit :=
  if condition then .ok () else .error mismatch

def Property.check (name : String) (binding : Binding) : Property → Except Mismatch Unit
  | .parameters names =>
      expect (binding.parameters = names) (.parameters name binding.parameters names)
  | .signature text =>
      let actual := binding.signature.map Ty.renderSignature
      expect (actual = some text) (.signature name actual text)
  | .unsigned =>
      match binding.signature with
      | some types => .error (.signed name (Ty.renderSignature types))
      | none => .ok ()
  | .exported value =>
      expect (binding.exported = value) (.bindingExported name binding.exported value)
  | .body text =>
      expect (binding.body.render = text) (.body name binding.body.render text)
  | .calls names =>
      expect (binding.body.callees = names) (.calls name binding.body.callees names)

namespace Expectation

def checkField (decl : TypeDecl) (name field expected : String) : Except Mismatch Unit :=
  match decl.field? field with
  | none => .error (.fieldMissing name field)
  | some found =>
      let actual := found.type.value.render
      expect (actual = expected) (.fieldType name field actual expected)

/-- Whether a compilation is as expected. Of several faults the first is given. -/
def check (compilation : Compilation) : Expectation → Except Mismatch Unit
  | .compiles =>
      expect (!compilation.hasErrors)
        (.errors compilation.log.errorCount compilation.log.messages)
  | .fails => expect compilation.hasErrors .succeeded
  | .hasError part => do
      expect compilation.hasErrors .noError
      let messages := compilation.log.messages
      expect (messages.any fun message => occursIn part.toList message.toList)
        (.otherErrors part messages)
  | .hasErrorCount count =>
      expect (compilation.log.errorCount = count) (.errorCount count compilation.log.errorCount)
  | .unitBuilds name builds =>
      match compilation.unit? name with
      | none => .error (.unitMissing name)
      | some unit =>
          let built := unit.table.isSome
          let hasErrors := compilation.log.hasErrorsIn unit.file
          if builds then expect (built && !hasErrors) (.unitFailed name)
          else expect (!built && hasErrors) (.unitBuilt name)
  | .noBinding name => do
      let table ← compilation.tableOf none
      expect (table.binding name).toOption.isNone (.bindingFound name)
  | .dependencies paths => do
      let table ← compilation.tableOf none
      expect (table.imports = paths) (.dependencies paths table.imports)
  | .exportLookup name found unit => do
      let table ← compilation.tableOf unit
      match table.exportedBinding name with
      | .ok _ => expect found (.exportFound name)
      | .error error => expect (!found) (.exportMissing name error)
  | .typeDefined name fields exported => do
      let table ← compilation.tableOf none
      match table.typeDecl name with
      | .error error => throw (.typeMissing name error)
      | .ok decl =>
          fields.forM fun field => checkField decl name field.1 field.2
          match exported with
          | none => return ()
          | some expected =>
              expect (decl.exported = expected) (.typeExported name decl.exported expected)
  | .binding name unit properties => do
      let table ← compilation.tableOf unit
      match table.binding name with
      | .error error => throw (.bindingMissing name error)
      | .ok bound => properties.forM (Property.check name bound)

/-- The number of expectations that are met before the first that is not. -/
def countMet (compilation : Compilation) (expectations : List Expectation) : Nat :=
  (expectations.takeWhile fun expectation => (check compilation expectation).toBool).length

end Expectation

/-- Writes sources out as units, each under its name. -/
def SourceUnit.ofSources (sources : List (String × List Source.Decl)) :
    Except Syntax.Defect (List SourceUnit) :=
  sources.mapM fun source => do
    let (text, tree) ← Source.render source.2
    return ⟨source.1, text, tree⟩

/-- The name of a source that was given none. -/
def SourceUnit.defaultName : String := "test.elz"

end Bindery
