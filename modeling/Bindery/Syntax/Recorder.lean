import Bindery.Syntax.Event

set_option autoImplicit false

/-! A recorder takes events one at a time and refuses to finish a node that has not started, so
what it holds never closes more nodes than it opens. -/

namespace Bindery.Syntax

/-- The events taken so far, and how many of the nodes started are still open. -/
structure Recorder where
  events : List Event
  depth : Nat
  deriving Repr

namespace Recorder

def empty : Recorder := ⟨[], 0⟩

/-- What is said when a node should finish that has not started. -/
def refusal : String := "finish_node without a matching start_node"

/-- Takes one more event; `none` if it is refused. -/
def record? (recorder : Recorder) : Event → Option Recorder
  | .start kind => some ⟨recorder.events ++ [.start kind], recorder.depth + 1⟩
  | .token kind span => some { recorder with events := recorder.events ++ [.token kind span] }
  | .finish =>
      if recorder.depth = 0 then none
      else some ⟨recorder.events ++ [.finish], recorder.depth - 1⟩

def recordAll (recorder : Recorder) (events : List Event) : Recorder :=
  events.foldl (fun recorder event => (recorder.record? event).getD recorder) recorder

end Recorder

end Bindery.Syntax
