import ServiceAnnotator.Proofs.Text.Insertion
import ServiceAnnotator.Text.Span

/-!
# Spans that tile a text

Spans tile a range if each of them starts where the one in front of it ends, so that every byte of
the range lies in exactly one of them.
-/

namespace ServiceAnnotator

namespace Text

/-- A part of a text is cut out between its two ends. -/
theorem slice?_append (front part behind : List Char) :
    slice? (byteLength front) (byteLength front + byteLength part) (front ++ (part ++ behind)) =
      some part := by
  simp [slice?, splitAt?_byteLength]

/-- The parts of a text around a part of it are cut out at the ends of the part. -/
theorem slice?_around (front part behind : List Char) :
    slice? 0 (byteLength front) (front ++ (part ++ behind)) = some front ∧
      slice? (byteLength front + byteLength part) (byteLength (front ++ (part ++ behind)))
        (front ++ (part ++ behind)) = some behind := by
  constructor
  · have first := slice?_append [] front (part ++ behind)
    simpa using first
  · have last := slice?_append (front ++ part) behind []
    simpa [Nat.add_assoc] using last

end Text

namespace Span

/-- Whether spans follow each other without a gap from a position up to another one. -/
def Tile : (start : Nat) → List Span → (stop : Nat) → Prop
  | start, [], stop => start = stop
  | start, span :: spans, stop =>
    span.start = start ∧ span.start ≤ span.stop ∧ Tile span.stop spans stop

theorem tile_cons_ofLength {start length stop : Nat} {spans : List Span} :
    Tile start (ofLength start length :: spans) stop ↔ Tile (start + length) spans stop := by
  simp [Tile, ofLength]

end Span

end ServiceAnnotator
