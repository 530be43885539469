import Bindery.SemanticError
import Bindery.Ty

set_option autoImplicit false

/-! The declarations of one compilation unit, each kind in source order. Names keep the place where
they were written, so that errors can point at them. -/

namespace Bindery

/-- Written `name p1 p2 = body`. -/
structure BindingDecl where
  name : Spanned String
  parameters : List String
  body : Expr
  exported : Bool
  deriving Repr

/-- A binding from the identifiers before its equals sign: the first is its name, the others are its
parameters. -/
def BindingDecl.ofHead (identifiers : List (Spanned String)) (body : Expr) (exported : Bool)
    (span : Span) : Except SemanticError BindingDecl :=
  match identifiers with
  | [] => .error (.bindingWithoutName span)
  | name :: parameters => .ok ⟨name, parameters.map Spanned.value, body, exported⟩

/-- Written `name :: T1 -> T2`, and kept as the types between the arrows. -/
structure SignatureDecl where
  name : Spanned String
  fragments : List (Spanned Ty)
  deriving DecidableEq, Repr

structure Field where
  name : Spanned String
  type : Spanned Ty
  deriving DecidableEq, Repr

/-- Written `type Name (field: T)`. -/
structure TypeDecl where
  name : Spanned String
  fields : List Field
  exported : Bool
  deriving DecidableEq, Repr

/-- The first field of that name. -/
def TypeDecl.field? (decl : TypeDecl) (name : String) : Option Field :=
  decl.fields.find? fun field => field.name.value = name

/-- What a unit declares. -/
structure Program where
  imports : List (Spanned String)
  bindings : List BindingDecl
  signatures : List SignatureDecl
  types : List TypeDecl
  deriving Repr

def Program.empty : Program := ⟨[], [], [], []⟩

end Bindery
