import ServiceAnnotator.Text.Blank
import ServiceAnnotator.Text.Bytes
import ServiceAnnotator.Text.Span
import ServiceAnnotator.Text.Width

/-!
# Excerpts of a source text

An excerpt holds the lines that a span touches and tells for each of them which part of the span it
shows. Long stretches of lines inside a span are folded.
-/

namespace ServiceAnnotator.Render

/-- A line of a source text: its number, its text without the line break, where it starts, and the
number of bytes of its line break. -/
structure SourceLine where
  number : Nat
  text : List Char
  start : Nat
  ending : Nat
  deriving DecidableEq, Repr

namespace SourceLine

/-- Where the text of a line ends. -/
def stop (line : SourceLine) : Nat := line.start + Text.byteLength line.text

/-- Where a span may end that stays within the line. Even without a line break it may end one past
the text. -/
def limit (line : SourceLine) : Nat := line.stop + max line.ending 1

/-- The longest part at the front of a text that takes at most the given number of bytes. -/
def front : Nat → List Char → List Char
  | _, [] => []
  | bytes, c :: cs => if c.utf8Size ≤ bytes then c :: front (bytes - c.utf8Size) cs else []

/-- The column at a position of a line; past the text it is the column at its end. -/
def column (line : SourceLine) (position : Nat) : Nat :=
  Text.columns 0 (front (position - line.start) line.text)

/-- The characters of a line as a terminal shows them: a tab as four blanks, and without the marks
that would change the direction or the joining of the characters around them. -/
def shown (line : SourceLine) : List Char :=
  line.text.flatMap fun c =>
    if c = '\t' then [' ', ' ', ' ', ' ']
    else if "\u200d\u202a\u202b\u202d\u202e\u2066\u2067\u2068\u202c\u2069".toList.contains c then []
    else [c]

/-- Whether only blanks stand before a column of a line. -/
def isBlankBefore (line : SourceLine) (column : Nat) : Bool :=
  (line.shown.take column).all Text.isBlank

/-- The text behind a line feed is shorter than the whole. -/
theorem length_lt_of_dropWhile_eq_cons {cs rest : List Char} {c : Char} {p : Char → Bool}
    (behind : cs.dropWhile p = c :: rest) : rest.length < cs.length := by
  have shorter := (List.dropWhile_sublist p : (cs.dropWhile p).Sublist cs).length_le
  rw [behind, List.length_cons] at shorter
  omega

/-- The lines of a text. A line break is a line feed with an optional carriage return in front, and
a last line without one counts unless it is empty. -/
def split (number start : Nat) (cs : List Char) : List SourceLine :=
  match cs with
  | [] => []
  | first :: rest =>
    let text := (first :: rest).takeWhile (· != '\n')
    match _ : (first :: rest).dropWhile (· != '\n') with
    | [] => [⟨number, text, start, 0⟩]
    | _ :: more =>
      let line : SourceLine :=
        if text.getLast? = some '\r' then ⟨number, text.dropLast, start, 2⟩
        else ⟨number, text, start, 1⟩
      line :: split (number + 1) (line.stop + line.ending) more
termination_by cs.length
decreasing_by exact length_lt_of_dropWhile_eq_cons ‹_›

end SourceLine

/-- What a line shows of a span; columns count from the start of the line. -/
inductive Mark where
  /-- Nothing of it. -/
  | none
  /-- All of it, between two columns. -/
  | within (first stop : Nat)
  /-- Its beginning, at a column with nothing but blanks before it. -/
  | opens (column : Nat)
  /-- Its beginning, at another column. -/
  | starts (column : Nat)
  /-- A part of it that goes on in both directions. -/
  | through
  /-- Its end, at a column. -/
  | ends (column : Nat)
  deriving DecidableEq, Repr

namespace Mark

/-- The columns at which a line shows a span, or its beginning or end. -/
def columns? : Mark → Option (Nat × Nat)
  | within first stop => some (first, stop)
  | opens column | starts column | ends column => some (column, column + 1)
  | none | through => Option.none

/-- Whether a line is shown whatever surrounds it. -/
def isHighlighted (mark : Mark) : Bool := mark.columns?.isSome

/-- Whether marks stand below the line. -/
def isUnderlined : Mark → Bool
  | within .. | starts _ | ends _ => true
  | none | opens _ | through => false

/-- What a line shows of a span, and whether the span ends on it. -/
def of (span : Span) (line : SourceLine) : Mark × Bool :=
  if line.stop + line.ending < span.start then (.none, false)
  else if line.start ≤ span.start ∧ span.stop ≤ line.limit then
    let first := line.column span.start
    let stop := line.column span.stop
    (.within first (if stop = first then first + 1 else stop), true)
  else if line.start ≤ span.start ∧ span.start ≤ line.stop + (line.ending - 1)
      ∧ line.stop < span.stop then
    let first := line.column span.start
    (if line.isBlankBefore first then .opens first else .starts first, false)
  else if span.start < line.start ∧ line.limit < span.stop then (.through, false)
  else if span.start < line.start ∧ line.start ≤ span.stop ∧ span.stop ≤ line.limit then
    let last := line.column span.stop - 1
    (.ends (if line.stop < span.stop then last + 1 else last), true)
  else (.none, false)

/-- The lines of a text with what each shows of a span. -/
def all (span : Span) : List SourceLine → List (SourceLine × Mark)
  | [] => []
  | line :: lines =>
    let (mark, done) := of span line
    (line, mark) :: if done then lines.map fun line => (line, .none) else all span lines

end Mark

/-- A row of an excerpt: a source line, or a stretch of lines that is left out. -/
inductive ExcerptLine where
  | source (line : SourceLine) (mark : Mark)
  | folded (mark : Mark)
  deriving DecidableEq, Repr

/-- The lines that a span touches. -/
structure Excerpt where
  /-- All lines that were considered, shown or not. -/
  considered : List (SourceLine × Mark)
  lines : List ExcerptLine
  span : Span

namespace Excerpt

/-- Lines between two highlighted ones: up to three of them are shown, of more than three only the
first and the last. -/
def between : List (SourceLine × Mark) → List ExcerptLine
  | [] => []
  | (line, mark) :: rest =>
    if rest.length ≤ 2 then
      .source line mark :: rest.map fun (line, mark) => .source line mark
    else
      .source line mark :: .folded mark ::
        (rest.getLast?.map fun (line, mark) => ExcerptLine.source line mark).toList

/-- The lines that are shown: highlighted lines and what is between them. -/
def shown (started : Bool) (pending : List (SourceLine × Mark)) :
    List (SourceLine × Mark) → List ExcerptLine
  | [] => []
  | (line, mark) :: rest =>
    if mark.isHighlighted then
      (if started then between pending else []) ++ .source line mark :: shown true [] rest
    else shown started (pending ++ [(line, mark)]) rest

/-- The excerpt for a span of a text, from the line on which the span starts to the line on which it
ends. The ends of the span have to be character boundaries, in order. -/
def of? (cs : List Char) (span : Span) : Option Excerpt :=
  if span.start ≤ span.stop then do
    let (before, behind) ← Text.splitAt? span.start cs
    let (inside, after) ← Text.splitAt? (span.stop - span.start) behind
    let sameLine := (before.reverse.takeWhile (· != '\n')).reverse
    let skipped := Text.byteLength before - Text.byteLength sameLine
    let source := sameLine ++ inside ++ after.takeWhile (· != '\n')
    let span : Span := ⟨span.start - skipped, span.stop - skipped⟩
    let considered := Mark.all span (SourceLine.split (before.count '\n' + 1) 0 source)
    pure ⟨considered, shown false [] considered, span⟩
  else
    none

/-- Line and column, both from one, at which the span starts. When no line shows it, they are those
of the start of a text. -/
def position (excerpt : Excerpt) : Nat × Nat :=
  (excerpt.lines.findSome? fun row =>
    match row with
    | .source line _ =>
      if line.start ≤ excerpt.span.start ∧ excerpt.span.start < line.limit then
        some (line.number, (SourceLine.front (excerpt.span.start - line.start) line.text).length + 1)
      else none
    | .folded _ => none).getD (1, 1)

/-- The greatest line number that is shown, if any line is. -/
def lastNumber? (excerpt : Excerpt) : Option Nat :=
  (excerpt.lines.filterMap fun row =>
    match row with
    | .source line _ => some line.number
    | .folded _ => none).max?

/-- Whether the span runs over several lines. -/
def isMultiline (excerpt : Excerpt) : Bool :=
  excerpt.lines.any fun row =>
    match row with
    | .source _ (.opens _) | .source _ (.starts _) | .source _ (.ends _) => true
    | _ => false

end Excerpt

end ServiceAnnotator.Render
