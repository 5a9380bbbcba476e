import ServiceAnnotator.Diagnostic

/-!
# Rows of styled characters

Output for a terminal is built row by row from cells, each a character and a style. Styles become
escape sequences only when a row is printed, and only where they change.
-/

namespace ServiceAnnotator.Render

/-- How a character is shown. -/
inductive Style where
  | plain
  /-- The message of a diagnostic. -/
  | message
  /-- Line numbers and the frame around source lines. -/
  | frame
  /-- Marks and labels of a diagnostic. -/
  | level (severity : Severity)
  deriving DecidableEq, Repr

namespace Style

/-- The escape sequence that turns a style on. -/
def code : Style → String
  | plain => ""
  | message => "\x1b[1m"
  | frame => "\x1b[1m\x1b[94m"
  | level .error => "\x1b[1m\x1b[91m"
  | level .warning => "\x1b[1m\x1b[33m"
  | level .hint => "\x1b[1m\x1b[96m"

/-- The escape sequence that turns a style off. -/
def reset : Style → String
  | plain => ""
  | _ => "\x1b[0m"

end Style

/-- A character and how it is shown. -/
structure Cell where
  char : Char
  style : Style
  deriving DecidableEq, Repr

/-- A row of cells, the first column first. -/
abbrev Row := List Cell

namespace Row

/-- The row with a text behind its last cell. -/
def add (row : Row) (text : String) (style : Style) : Row :=
  row ++ text.toList.map fun c => ⟨c, style⟩

/-- The row with a text from a column on, over the cells that were there. Columns that the row did
not reach before are blank; an empty text leaves the row as it is. -/
def put (row : Row) (column : Nat) (text : List Char) (style : Style) : Row :=
  if text.isEmpty then row
  else
    let padded := row ++ List.replicate (column - row.length) ⟨' ', .plain⟩
    padded.take column ++ text.map (fun c => ⟨c, style⟩) ++ padded.drop (column + text.length)

/-- The characters of a row, without styles. -/
def plain (row : Row) : String := String.ofList (row.map Cell.char)

/-- The rest of a row behind cells of a style, with escape sequences where the style changes. -/
def styledFrom (current : Style) : Row → String
  | [] => current.reset
  | cell :: row =>
    let change := if cell.style = current then "" else current.reset ++ cell.style.code
    change ++ cell.char.toString ++ styledFrom cell.style row

/-- A row with escape sequences. -/
def styled (row : Row) : String := styledFrom .plain row

end Row

end ServiceAnnotator.Render
