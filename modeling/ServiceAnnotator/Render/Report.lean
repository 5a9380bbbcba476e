import ServiceAnnotator.Render.Row
import ServiceAnnotator.Render.Window

/-!
# Reports for a terminal

A diagnostic is shown as its message, the place it is about, and an excerpt of the source in which
the span is marked and labelled.
-/

namespace ServiceAnnotator.Render

/-- The word that introduces a message. -/
def levelName : Severity → String
  | .error => "error"
  | .warning => "warning"
  | .hint => "help"

/-- The sign that marks a span. -/
def markSign : Severity → Char
  | .error => '^'
  | .warning | .hint => '-'

/-- The label of every mark. -/
def labelText : String := "here"

/-- The label as it is shown; that of a hint names its level. -/
def shownLabel : Severity → String
  | .hint => "help: " ++ labelText
  | _ => labelText

/-- The characters at the front of a text that fit into a number of columns, and their columns. -/
def fitting : Nat → List Char → List Char × Nat
  | _, [] => ([], 0)
  | room, c :: cs =>
    let width := (Text.width? c).getD 1
    if width ≤ room then
      let (fit, taken) := fitting (room - width) cs
      (c :: fit, width + taken)
    else ([], 0)

/-- What all rows of a report depend on. -/
structure Layout where
  severity : Severity
  /-- Columns of the line numbers. -/
  numberWidth : Nat
  multiline : Bool
  window : Window

namespace Layout

/-- The column of the bar beside the source lines that a span runs over. -/
def barColumn (layout : Layout) : Nat := layout.numberWidth + 3

/-- The column at which source lines start. -/
def codeColumn (layout : Layout) : Nat := layout.barColumn + if layout.multiline then 2 else 0

/-- How marks are shown. -/
def markStyle (layout : Layout) : Style := .level layout.severity

/-- A row with nothing but the frame. -/
def frameRow (layout : Layout) : Row := Row.put [] (layout.numberWidth + 1) ['|'] .frame

/-- A number at the right end of the columns of the line numbers. -/
def padded (layout : Layout) (number : Nat) : List Char :=
  let digits := (toString number).toList
  List.replicate (layout.numberWidth - digits.length) ' ' ++ digits

/-- The row with the bar of a span beside a source line. -/
def withBar (layout : Layout) (row : Row) : Mark → Row
  | .opens _ => row.put layout.barColumn ['/'] layout.markStyle
  | .through | .ends _ => row.put layout.barColumn ['|'] layout.markStyle
  | _ => row

/-- A row with a source line. -/
def sourceRow (layout : Layout) (line : SourceLine) (mark : Mark) : Row :=
  let text := line.shown
  let length := Text.byteLength text
  let left := layout.window.leftOf length
  let (code, taken) := fitting (layout.window.rightOf length - left) (text.drop left)
  let numbered := Row.put [] 0 (layout.padded line.number ++ [' ', '|']) .frame
  let row := (layout.withBar numbered mark).put layout.codeColumn code .plain
  let row := if layout.window.cutsLeft then row.put layout.codeColumn ['.', '.', '.'] .frame else row
  if layout.window.cutsRight length then
    row.put (layout.codeColumn + taken - 3) ['.', '.', '.'] .frame
  else row

/-- The row below a source line with the marks between two columns of the line. -/
def markRow (layout : Layout) (line : SourceLine) (mark : Mark) (first stop : Nat) : Row :=
  let text := line.shown
  let cut := Text.columns 1 (text.take (layout.window.leftOf (Text.byteLength text)))
  let column := layout.codeColumn + first - cut
  let signs := List.replicate (stop - first) (markSign layout.severity)
  let label := (shownLabel layout.severity).toList
  let line := List.replicate (column - (layout.barColumn + 1)) '_'
  let row := layout.frameRow
  match mark with
  | .starts _ =>
    (row.put (layout.barColumn + 1) line layout.markStyle).put column signs layout.markStyle
  | .ends _ =>
    let row := (layout.withBar row mark).put (layout.barColumn + 1) line layout.markStyle
    (row.put column signs layout.markStyle).put (layout.codeColumn + (stop + 1 - cut)) label
      layout.markStyle
  | _ =>
    (row.put column signs layout.markStyle).put (layout.codeColumn + (stop + 1 - cut)) label
      layout.markStyle

/-- The rows of a line of an excerpt. -/
def rowsOf (layout : Layout) : ExcerptLine → List Row
  | .folded mark => [layout.withBar (Row.put [] 0 ['.', '.', '.'] .frame) mark]
  | .source line mark =>
    let marks :=
      if mark.isUnderlined then
        (mark.columns?.map fun (first, stop) => layout.markRow line mark first stop).toList
      else []
    layout.sourceRow line mark :: marks

end Layout

/-- The row with the level and the message. -/
def titleRow (severity : Severity) (message : String) : Row :=
  let row := Row.add [] (levelName severity) (.level severity)
  if message.isEmpty then row else (row.add ": " .plain).add message .message

/-- The row with the path and the position. -/
def originRow (numberWidth : Nat) (path : String) (position : Nat × Nat) : Row :=
  let row := (Row.put [] numberWidth ['-', '-', '>'] .frame).put (numberWidth + 4) path.toList .plain
  row.add (":" ++ toString position.1 ++ ":" ++ toString position.2) .plain

/-- All rows of a report. There are none when the span does not lie in the text. -/
def rows? (diagnostic : Diagnostic) (path : String) (text : List Char) : Option (List Row) := do
  let excerpt ← Excerpt.of? text diagnostic.span
  let firstNumber := ((excerpt.considered.head?.map fun (line, _) => line.number).getD
    (text.count '\n' + 1))
  let frame := 3 + (toString (firstNumber + excerpt.considered.length)).length
  let numberWidth := (excerpt.lastNumber?.map fun number => (toString number).length).getD 0
  let layout : Layout :=
    { severity := diagnostic.severity
      numberWidth
      multiline := excerpt.isMultiline
      window := Window.of frame (labelText.length + 1) excerpt }
  pure ([titleRow diagnostic.severity diagnostic.message,
      originRow numberWidth path excerpt.position, layout.frameRow]
    ++ excerpt.lines.flatMap layout.rowsOf ++ [layout.frameRow])

/-- A report without styles. -/
def plain? (diagnostic : Diagnostic) (path : String) (text : List Char) : Option String :=
  (rows? diagnostic path text).map fun rows => "\n".intercalate (rows.map Row.plain)

/-- A report with escape sequences for styles. -/
def styled? (diagnostic : Diagnostic) (path : String) (text : List Char) : Option String :=
  (rows? diagnostic path text).map fun rows => "\n".intercalate (rows.map Row.styled)

end ServiceAnnotator.Render
