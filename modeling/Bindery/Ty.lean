import Bindery.Expr

set_option autoImplicit false

/-! Types as they stand in signatures and fields. There is no function type: a signature with arrows
is the list of the types between them, the result last. -/

namespace Bindery

/-- The type names that every environment may provide without a declaration. -/
def preludeNames : List String := ["int", "f64", "void", "bool", "string", "List"]

/-- What a type becomes in machine code. -/
inductive MachineType where
  | integer64
  | float64
  deriving DecidableEq, Repr

def MachineType.render : MachineType → String
  | .integer64 => "i64"
  | .float64 => "double"

inductive Ty where
  /-- A type that is defined elsewhere and found by its name. -/
  | named (name : String)
  | void
  /-- A type variable, written with a quote before its name. -/
  | variable (name : String)
  | int
  | float
  deriving DecidableEq, Repr

namespace Ty

/-- The type a name stands for. Three names have a type of their own, so that none of them is ever
looked up. -/
def ofName (name : String) : Ty :=
  if name = "int" then .int
  else if name = "f64" then .float
  else if name = "void" then .void
  else .named name

/-- The three names with the types that they stand for; every other name stands for itself. -/
theorem ofName_cases (name : String) :
    (name = "int" ∧ ofName name = .int) ∨ (name = "f64" ∧ ofName name = .float) ∨
      (name = "void" ∧ ofName name = .void) ∨
      (name ∉ ["int", "f64", "void"] ∧ ofName name = .named name) := by
  by_cases integer : name = "int"
  · exact .inl ⟨integer, integer ▸ rfl⟩
  by_cases float : name = "f64"
  · exact .inr (.inl ⟨float, float ▸ rfl⟩)
  by_cases void : name = "void"
  · exact .inr (.inr (.inl ⟨void, void ▸ rfl⟩))
  have free : name ∉ ["int", "f64", "void"] := by simp [integer, float, void]
  refine .inr (.inr (.inr ⟨free, ?_⟩))
  rw [ofName, if_neg integer, if_neg float, if_neg void]

/-- The machine type, for the types that have one. -/
def machineType? : Ty → Option MachineType
  | .int => some .integer64
  | .float => some .float64
  | .named _ | .void | .variable _ => none

/-- The name that has to be known where the type is used. -/
def reference? : Ty → Option String
  | .named name => some name
  | .void | .variable _ | .int | .float => none

def render : Ty → String
  | .named name => name
  | .void => "void"
  | .variable name => "'" ++ name
  | .int => "int"
  | .float => "f64"

def renderSignature (types : List Ty) : String :=
  String.intercalate " -> " (types.map render)

end Ty

/-- The reason why an expression has no type of its own. -/
structure NotNumeric where
  expr : Expr

def NotNumeric.message (reason : NotNumeric) : String :=
  "you can't use expression `" ++ reason.expr.describe ++ "` to get type directly"

/-- The type of a number, also of one that is an argument. Other expressions have no type before
names are resolved. -/
def Expr.numericType : Expr → Except NotNumeric Ty
  | .integer _ _ => .ok .int
  | .float _ _ => .ok .float
  | .argument _ value _ => value.numericType
  | expr => .error ⟨expr⟩

end Bindery
