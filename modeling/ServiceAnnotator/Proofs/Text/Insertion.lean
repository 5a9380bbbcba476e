import ServiceAnnotator.Text.Bytes

/-!
# Insertions into a text

An edit that only adds text is a list of insertions, each at a byte position of the text before the
edit. Making the insertions keeps every other character in its order, so an edit that equals its
insertions has neither dropped nor moved anything.
-/

namespace ServiceAnnotator.Text

/-- A text to be put in front of the character at a byte position. -/
structure Insertion where
  position : Nat
  text : List Char
  deriving DecidableEq, Repr

/-- A text, of which the first byte has the position `start`, after all insertions. Their positions
have to be in order and on character boundaries of the text. -/
def insertFrom? (start : Nat) (cs : List Char) : List Insertion → Option (List Char)
  | [] => some cs
  | insertion :: insertions =>
    if start ≤ insertion.position then do
      let (before, after) ← splitAt? (insertion.position - start) cs
      let rest ← insertFrom? insertion.position after insertions
      pure (before ++ insertion.text ++ rest)
    else
      none

/-- The text after all insertions. -/
def insert? (cs : List Char) (insertions : List Insertion) : Option (List Char) :=
  insertFrom? 0 cs insertions

/-- A cut behind a known front is a cut of what follows. -/
theorem splitAt?_append (front cs : List Char) (count : Nat) :
    splitAt? (byteLength front + count) (front ++ cs) =
      (splitAt? count cs).map fun (before, after) => (front ++ before, after) := by
  induction front with
  | nil => simp
  | cons c front ih =>
    have positive := c.utf8Size_pos
    obtain ⟨rest, sizeEq⟩ : ∃ rest, c.utf8Size + byteLength front + count = rest + 1 :=
      ⟨c.utf8Size + byteLength front + count - 1, by omega⟩
    have fits : c.utf8Size ≤ rest + 1 := by omega
    have remaining : rest + 1 - c.utf8Size = byteLength front + count := by omega
    rw [byteLength_cons, sizeEq, List.cons_append, splitAt?, if_pos fits, remaining, ih,
      Option.map_map]
    rfl

@[simp] theorem splitAt?_zero (cs : List Char) : splitAt? 0 cs = some ([], cs) := by
  cases cs <;> rfl

/-- A text is cut where its front ends. -/
theorem splitAt?_byteLength (front cs : List Char) :
    splitAt? (byteLength front) (front ++ cs) = some (front, cs) := by
  simpa using splitAt?_append front cs 0

/-- Insertions behind a front leave the front as it is. -/
theorem insertFrom?_append (start : Nat) (front cs : List Char) (insertions : List Insertion)
    (behind : ∀ insertion ∈ insertions, start + byteLength front ≤ insertion.position) :
    insertFrom? start (front ++ cs) insertions =
      (insertFrom? (start + byteLength front) cs insertions).map (front ++ ·) := by
  cases insertions with
  | nil => rfl
  | cons insertion insertions =>
    have first := behind insertion (by simp)
    have distance : insertion.position - start =
        byteLength front + (insertion.position - (start + byteLength front)) := by
      omega
    have ordered : start ≤ insertion.position := by omega
    rw [insertFrom?, insertFrom?, if_pos first, if_pos ordered, distance, splitAt?_append]
    cases splitAt? (insertion.position - (start + byteLength front)) cs with
    | none => rfl
    | some parts =>
      cases made : insertFrom? insertion.position parts.2 insertions <;> simp [made]

/-- The first insertion goes behind the front that ends at its position. -/
theorem insertFrom?_cons (start : Nat) (front cs : List Char) (insertion : Insertion)
    (insertions : List Insertion) (here : insertion.position = start + byteLength front) :
    insertFrom? start (front ++ cs) (insertion :: insertions) =
      (insertFrom? insertion.position cs insertions).map (front ++ insertion.text ++ ·) := by
  have ordered : start ≤ insertion.position := by omega
  have distance : insertion.position - start = byteLength front := by omega
  rw [insertFrom?, if_pos ordered, distance, splitAt?_byteLength]
  cases made : insertFrom? insertion.position cs insertions <;> simp [made]

end ServiceAnnotator.Text
