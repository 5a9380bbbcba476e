/-!
# Tables of character ranges

Properties of characters beyond ASCII are given as lists of ranges of code points.
-/

namespace ServiceAnnotator.Text

/-- Whether the code point of a character lies in one of the ranges, both ends included. -/
def inRanges (table : List (Nat × Nat)) (c : Char) : Bool :=
  table.any fun (first, last) => first ≤ c.toNat && c.toNat ≤ last

end ServiceAnnotator.Text
