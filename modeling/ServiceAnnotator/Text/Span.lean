/-!
# Spans

A span is the half-open range of bytes between two positions of a document.
-/

namespace ServiceAnnotator

/-- Half-open range of byte positions. -/
structure Span where
  start : Nat
  stop : Nat
  deriving DecidableEq, Repr, Inhabited

namespace Span

/-- The empty span at a position. -/
def empty (position : Nat) : Span := ⟨position, position⟩

/-- The span of `length` bytes from a position on. -/
def ofLength (start length : Nat) : Span := ⟨start, start + length⟩

/-- Number of bytes between the two ends. -/
def length (span : Span) : Nat := span.stop - span.start

end Span

end ServiceAnnotator
