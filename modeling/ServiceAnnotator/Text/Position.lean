import ServiceAnnotator.Text.Bytes

/-!
# Lines and columns

A position in a text is shown to a reader as a line and a column. Lines end at a line feed only, and
the column counts the bytes from the start of the line; both start at zero.
-/

namespace ServiceAnnotator.Text

/-- The text behind the last line feed. -/
def lastLine (cs : List Char) : List Char := (cs.reverse.takeWhile (· != '\n')).reverse

/-- Line and column of a byte position. A position past the end or inside a character has none. -/
def lineColumn? (cs : List Char) (position : Nat) : Option (Nat × Nat) := do
  let (before, _) ← splitAt? position cs
  pure (before.count '\n', byteLength (lastLine before))

end ServiceAnnotator.Text
