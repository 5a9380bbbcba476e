import ServiceAnnotator.Text.RangeTable

/-!
# Blank characters

Blank characters, those with the Unicode property `White_Space`, cannot be escaped in an identifier
and are dropped from both ends when a name or a line of documentation is read.
-/

namespace ServiceAnnotator.Text

/-- Ranges of blank code points beyond ASCII, in increasing order. -/
def blankRanges : List (Nat × Nat) := [
  (0x85, 0x85), (0xa0, 0xa0), (0x1680, 0x1680), (0x2000, 0x200a), (0x2028, 0x2029),
  (0x202f, 0x202f), (0x205f, 0x205f), (0x3000, 0x3000)]

/-- Whether a character has the Unicode property `White_Space`; in ASCII these are the space and the
five control characters from tab to carriage return. -/
def isBlank (c : Char) : Bool :=
  if c.toNat < 0x80 then c == ' ' || (0x09 ≤ c.toNat && c.toNat ≤ 0x0d) else inRanges blankRanges c

/-- A text without the blank characters at its two ends. -/
def trim (cs : List Char) : List Char :=
  ((cs.dropWhile isBlank).reverse.dropWhile isBlank).reverse

end ServiceAnnotator.Text
