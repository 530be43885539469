set_option autoImplicit false

/-! Stretches of a text, measured in UTF-8 bytes, and values that remember theirs. -/

namespace Bindery

/-- The bytes from `start` up to and not including `stop`. Nothing forces `start ≤ stop`: a span is
data that a caller hands in, and the operations that need an order check it. -/
structure Span where
  start : Nat
  stop : Nat
  deriving DecidableEq, Repr, Inhabited

namespace Span

/-- The least span that covers both. -/
def join (left right : Span) : Span :=
  ⟨min left.start right.start, max left.stop right.stop⟩

def shift (distance : Nat) (span : Span) : Span :=
  ⟨span.start + distance, span.stop + distance⟩

def render (span : Span) : String :=
  toString span.start ++ ".." ++ toString span.stop

end Span

/-- A value and the place where it was written. -/
structure Spanned (α : Type) where
  value : α
  span : Span
  deriving DecidableEq, Repr

namespace Spanned

variable {α β : Type}

def map (f : α → β) (item : Spanned α) : Spanned β :=
  ⟨f item.value, item.span⟩

/-- The same value at a place moved to the right by `distance` bytes. -/
def shift (distance : Nat) (item : Spanned α) : Spanned α :=
  ⟨item.value, item.span.shift distance⟩

end Spanned

end Bindery
