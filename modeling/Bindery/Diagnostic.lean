import Bindery.Span

set_option autoImplicit false

/-! Reports about source files: a message, the places it is about and further advice. -/

namespace Bindery

inductive Severity where
  | bug | error | warning | note | help
  deriving DecidableEq, Repr

namespace Severity

def name : Severity → String
  | .bug => "bug"
  | .error => "error"
  | .warning => "warning"
  | .note => "note"
  | .help => "help"

/-- Whether a report of this severity counts as an error. -/
def isError : Severity → Bool
  | .bug | .error => true
  | .warning | .note | .help => false

end Severity

/-- A primary label marks the cause, a secondary one what has to do with it. -/
inductive LabelStyle where
  | primary | secondary
  deriving DecidableEq, Repr

structure Label where
  style : LabelStyle
  file : Nat
  span : Span
  message : String
  deriving DecidableEq, Repr

structure Diagnostic where
  severity : Severity
  message : String
  labels : List Label
  notes : List String
  deriving DecidableEq, Repr

def Diagnostic.isError (diagnostic : Diagnostic) : Bool := diagnostic.severity.isError

end Bindery
