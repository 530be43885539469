import Bindery.Diagnostic

set_option autoImplicit false

/-! What can be wrong with a declaration or a look-up, and how it is reported. -/

namespace Bindery

inductive LiteralKind where
  | integer
  | float
  deriving DecidableEq, Repr

def LiteralKind.name : LiteralKind → String
  | .integer => "integer"
  | .float => "float"

inductive SemanticError where
  | bindingExists (name : String) (span first : Span)
  /-- A look-up has no place, a signature has that of its name. -/
  | noSuchBinding (name : String) (span : Option Span)
  /-- The binding may well exist, but it is not exported. -/
  | notExported (name : String)
  /-- A name that the environment provides has no first place. -/
  | typeExists (name : String) (span : Span) (first : Option Span)
  | noSuchType (name : String)
  | unknownType (name : String) (span : Span)
  | bindingWithoutName (span : Span)
  | bindingWithoutBody (name : String) (span : Span)
  /-- A field holds one value; arrows belong to signatures. -/
  | functionField (name : String) (span : Span)
  | invalidLiteral (kind : LiteralKind) (text : String) (span : Span)
  deriving DecidableEq, Repr

namespace SemanticError

def message : SemanticError → String
  | .bindingExists name _ _ => "binding `" ++ name ++ "` already exists"
  | .noSuchBinding name _ => "no such binding `" ++ name ++ "`"
  | .notExported name => "no export binding `" ++ name ++ "`"
  | .typeExists name _ _ => "type `" ++ name ++ "` already exists"
  | .noSuchType name => "no such type `" ++ name ++ "`"
  | .unknownType name _ => "unknown type `" ++ name ++ "`"
  | .bindingWithoutName _ => "binding declaration has no name"
  | .bindingWithoutBody name _ => "binding `" ++ name ++ "` has no body"
  | .functionField name _ => "field `" ++ name ++ "` cannot have a function type"
  | .invalidLiteral kind text _ => "invalid " ++ kind.name ++ " literal `" ++ text ++ "`"

/-- Where the error points, if it came from a declaration. -/
def span? : SemanticError → Option Span
  | .bindingExists _ span _ | .typeExists _ span _ | .unknownType _ span
  | .bindingWithoutName span | .bindingWithoutBody _ span | .functionField _ span
  | .invalidLiteral _ _ span => some span
  | .noSuchBinding _ span => span
  | .notExported _ | .noSuchType _ => none

/-- The place of the definition that came first. -/
def firstSpan? : SemanticError → Option Span
  | .bindingExists _ _ first => some first
  | .typeExists _ _ first => first
  | _ => none

/-- What is said at the place of the error. -/
def label : SemanticError → String
  | .bindingExists .. => "redefined here"
  | .noSuchBinding .. => "signature for an unbound name"
  | .notExported .. => "not exported"
  | .typeExists .. => "redefined here"
  | .noSuchType .. => "not defined"
  | .unknownType .. => "not found in this compilation"
  | .bindingWithoutName .. => "expected a name before `=`"
  | .bindingWithoutBody .. => "expected an expression after `=`"
  | .functionField .. => "expected a single type"
  | .invalidLiteral .. => "cannot be represented"

/-- Advice that belongs to no place. -/
def notes : SemanticError → List String
  | .typeExists _ _ none => ["this name is provided by the compilation environment"]
  | .unknownType .. => ["types must be primitives or defined with `type`"]
  | _ => []

/-- The report of the error in a file: the place of the error first, then that of the definition it
collides with. -/
def diagnostic (error : SemanticError) (file : Nat) : Diagnostic where
  severity := .error
  message := error.message
  labels :=
    (error.span?.map fun span => Label.mk .primary file span error.label).toList ++
      (error.firstSpan?.map fun span => Label.mk .secondary file span "first defined here").toList
  notes := error.notes

end SemanticError

end Bindery
