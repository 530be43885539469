set_option autoImplicit false

/-! Declarations as they are written down: the form in which a source is put together before it
has a text and a tree. Nothing here is checked; names and literals are any texts. -/

namespace Bindery.Source

/-- A type as it is written. -/
inductive TypeExpr where
  | named (name : String)
  | void
  | variable (name : String)
  /-- Types with arrows between them. -/
  | arrow (types : List TypeExpr)
  deriving Repr

/-- An expression as it is written. -/
inductive Term where
  | integer (text : String)
  | float (text : String)
  | string (value : String)
  | boolean (value : Bool)
  | identifier (name : String)
  | binary (left : Term) (operator : Char) (right : Term)
  | paren (inner : Term)
  | call (callee : Term) (arguments : List (Option String × Term))
  deriving Repr

inductive Decl where
  | bringIn (path : String)
  /-- The identifiers before the equals sign, and the expression after it. Either may be missing. -/
  | binding (exported : Bool) (identifiers : List String) (body : Option Term)
  | signature (name : String) (type : TypeExpr)
  | typeDefinition (exported : Bool) (name : String) (fields : List (String × TypeExpr))
  deriving Repr

/-- The declaration made visible to other units, if it is of a kind that can be. -/
def Decl.publish : Decl → Decl
  | .bringIn path => .bringIn path
  | .binding _ identifiers body => .binding true identifiers body
  | .signature name type => .signature name type
  | .typeDefinition _ name fields => .typeDefinition true name fields

end Bindery.Source
