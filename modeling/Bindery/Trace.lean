set_option autoImplicit false

/-! Records of what happens during a compilation, for a reader who follows it. They are computed
from the states between the steps and have no part in them. -/

namespace Bindery.Trace

/-- From the most severe to the most detailed. -/
inductive Level where
  | error | warn | info | debug | trace
  deriving DecidableEq, Repr

namespace Level

def name : Level → String
  | .error => "ERROR"
  | .warn => "WARN"
  | .info => "INFO"
  | .debug => "DEBUG"
  | .trace => "TRACE"

def rank : Level → Nat
  | .error => 0
  | .warn => 1
  | .info => 2
  | .debug => 3
  | .trace => 4

end Level

structure Record where
  level : Level
  message : String
  /-- Named texts, each name once. -/
  fields : List (String × String)
  deriving DecidableEq, Repr

/-- The records of a level and of all more severe ones. -/
def upTo (level : Level) (records : List Record) : List Record :=
  records.filter fun record => record.level.rank ≤ level.rank

def count (value : Nat) : String := toString value

end Bindery.Trace
