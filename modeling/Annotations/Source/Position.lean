/-!
# Positions and Spans

A position is a byte offset together with the label of the input it points
into. Offsets are kept in 32 bits: beyond four gibibytes they wrap around.

## Main definitions

* `Position`: A byte offset in a labelled input.
* `Position.ofOffset`: The position of an offset of any size.
* `Span`: From one position up to another.
* `defaultLabel`: The label of an input that has no name.
-/

namespace Annotations

namespace Source

/-- The label of an input that has no name. -/
def defaultLabel : String :=
  "<input>"

/-- A byte offset and the label of the input it points into. -/
structure Position where
  offset : UInt32
  label : String
deriving DecidableEq, Repr

/-- The position of an offset, of which the low 32 bits are kept. -/
def Position.ofOffset (label : String) (offset : Nat) : Position :=
  ⟨UInt32.ofNat offset, label⟩

/-- The stretch of an input from one position up to another. -/
structure Span where
  start : Position
  stop : Position
deriving DecidableEq, Repr

/-- The span of `length` bytes from an offset on. -/
def Span.ofLength (label : String) (offset length : Nat) : Span :=
  ⟨.ofOffset label offset, .ofOffset label (offset + length)⟩

end Source

end Annotations
