import ServiceAnnotator.Render.Excerpt
import ServiceAnnotator.Text.Blank

/-!
# Windows on long lines

Source lines that do not fit are shown through a window. It is placed so that the marks and their
label stay visible, and indentation that all lines share is cut first.
-/

namespace ServiceAnnotator.Render

/-- The part of the source lines that is shown, in characters from the start of a line. -/
structure Window where
  left : Nat
  right : Nat
  /-- Number of columns that are available. -/
  width : Nat
  /-- Where the marks end, with room for an ellipsis. -/
  spanRight : Nat
  /-- Where the label ends, with room for an ellipsis. -/
  labelRight : Nat

namespace Window

/-- Columns that source lines may take, the frame included. -/
def terminalWidth : Nat := 140

/-- Room that is left for an ellipsis beside marks and labels. -/
def ellipsisRoom : Nat := 6

/-- Columns of the blanks at the front of a line; a tab counts four. -/
def indentation (text : List Char) : Nat :=
  (text.takeWhile Text.isBlank).foldl (fun columns c => columns + if c = '\t' then 4 else 1) 0

/-- The least indentation of the lines that are not blank, if there are any. -/
def sharedIndentation? (lines : List SourceLine) : Option Nat :=
  ((lines.filter fun line => line.text.any (!Text.isBlank ·)).map fun line =>
    indentation line.text).min?

/-- Where the window lies when the lines do not fit: only the shared indentation is cut if the label
then fits, else the window is placed around the marks and the label, else around the marks. -/
def squeeze (width indent spanLeft spanRight labelRight : Nat) : Nat × Nat :=
  if indent ≤ labelRight ∧ labelRight - indent ≤ width then (indent, indent + width)
  else if labelRight - spanLeft ≤ width then
    let left := spanLeft - (width - (labelRight - spanLeft)) / 2
    (left, left + width)
  else if spanRight - spanLeft ≤ width then
    let left := spanLeft - (width - (spanRight - spanLeft)) / 5 * 2
    (left, left + width)
  else (spanLeft, spanRight)

/-- The window for an excerpt whose frame takes `frame` columns and whose label takes `label`. Deep
indentation is cut even where everything fits. Where all lines are blank, all of them is cut. -/
def of (frame label : Nat) (excerpt : Excerpt) : Window :=
  let width := terminalWidth - frame
  let marked := excerpt.considered.filterMap fun (_, mark) => mark.columns?
  let spanLeft := (marked.map (·.1)).min?.getD 0 - ellipsisRoom
  let stop := (marked.map (·.2)).max?.getD 0
  let spanRight := stop + ellipsisRoom
  let labelRight := (if marked.isEmpty then 0 else stop + label) + ellipsisRoom
  let lines := excerpt.considered.map (·.1)
  let longest := (lines.map fun line => Text.byteLength line.text).max?.getD 0
  let (left, right) :=
    match sharedIndentation? lines with
    | none => (longest + 1, longest + 1)
    | some indent =>
      let indent := indent - ellipsisRoom
      let left := if 20 < indent then indent - 16 else 0
      let right := max longest left
      if width < right - left then squeeze width indent spanLeft spanRight labelRight
      else (left, right)
  ⟨left, right, width, spanRight, labelRight⟩

/-- First character that is shown of a line of the given length in bytes. -/
def leftOf (window : Window) (length : Nat) : Nat := min window.left length

/-- Where the part of a line that is shown ends. -/
def rightOf (window : Window) (length : Nat) : Nat :=
  if length - window.left ≤ window.width then length else min length window.right

/-- Whether an ellipsis stands at the left end. -/
def cutsLeft (window : Window) : Bool := 0 < window.left

/-- Whether an ellipsis stands at the right end of a line of the given length in bytes. -/
def cutsRight (window : Window) (length : Nat) : Bool :=
  let right :=
    if window.right = window.spanRight || window.right = window.labelRight then
      window.right - ellipsisRoom
    else window.right
  right < length && window.left + window.width < length

end Window

end ServiceAnnotator.Render
