import Bindery.Table

set_option autoImplicit false

/-! The listing of a table, one line for each entry. -/

namespace Bindery

/-- One binding as a line: `pub add x y :: int -> int -> int = x + y`. -/
def Binding.render (binding : Binding) : String :=
  (if binding.exported then "pub " else "") ++ binding.name ++
    String.join (binding.parameters.map fun parameter => " " ++ parameter) ++
    (match binding.signature with
      | some types => " :: " ++ Ty.renderSignature types
      | none => "") ++
    " = " ++ binding.body.render

/-- One type definition as a line: `type Point (x: int, y: int)`. -/
def TypeDecl.render (decl : TypeDecl) : String :=
  (if decl.exported then "pub " else "") ++ "type " ++ decl.name.value ++ " (" ++
    String.intercalate ", "
      (decl.fields.map fun field => field.name.value ++ ": " ++ field.type.value.render) ++ ")"

namespace Table

/-- The lines of a table: imports, then type definitions, then bindings. -/
def lines (table : Table) : List String :=
  table.imports.map (fun path => "import " ++ path) ++
    table.types.values.map TypeDecl.render ++ table.bindings.values.map Binding.render

def render (table : Table) : String := String.join (table.lines.map fun line => line ++ "\n")

end Table

end Bindery
