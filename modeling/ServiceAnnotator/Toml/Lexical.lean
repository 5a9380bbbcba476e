import ServiceAnnotator.Toml.Reader

/-!
# Blanks, comments and strings of TOML

Strings come in four forms: with or without escapes, on one line or on several. In those that may
run over several lines, a line break counts as a line feed.
-/

namespace ServiceAnnotator.Toml

open Reader

/-- Whether a character separates words on a line. -/
def isSpace (c : Char) : Bool := c = ' ' || c = '\t'

/-- Whether a character may stand in a comment or a string. -/
def isPrinting (c : Char) : Bool := c = '\t' || (' ' ≤ c && c ≠ '\x7f')

/-- Reads the blanks at the front. -/
def spaces : Reader Unit := do
  let _ ← run isSpace

/-- Reads the end of a line. -/
def newline : Reader Unit := word ['\n'] <|> word ['\r', '\n']

/-- Reads a comment up to the end of its line. -/
def comment : Reader Unit := do
  word ['#']
  let _ ← run isPrinting

/-- Reads the rest of a line on which nothing but a comment may follow. -/
def lineEnd : Reader Unit := do
  spaces
  let _ ← perhaps comment
  newline <|> ended

/-- Reads blanks, comments and line ends. -/
def gap : Reader Unit := do
  let _ ← many ((do let _ ← nonemptyRun isSpace) <|> newline <|> comment)

/-! ## Escapes -/

/-- The value of a hexadecimal digit. -/
def hexValue? (c : Char) : Option Nat :=
  if c.isDigit then some (c.toNat - '0'.toNat)
  else if 'a' ≤ c && c ≤ 'f' then some (c.toNat - 'a'.toNat + 10)
  else if 'A' ≤ c && c ≤ 'F' then some (c.toNat - 'A'.toNat + 10)
  else none

/-- Reads a number of hexadecimal digits. -/
def hexDigits : Nat → Nat → Reader Nat
  | 0, value => pure value
  | count + 1, value => do
    let c ← one fun c => (hexValue? c).isSome
    hexDigits count (16 * value + (hexValue? c).getD 0)

/-- Reads a code point of some hexadecimal digits. Surrogates and numbers past the last code point
are refused. -/
def scalar (digits : Nat) : Reader Char := do
  let value ← hexDigits digits 0
  if value.isValidChar then pure (Char.ofNat value) else failure

/-- Reads the character that an escape stands for. -/
def escape : Reader Char := do
  word ['\\']
  let c ← one fun _ => true
  match c with
  | 'b' => pure '\x08'
  | 't' => pure '\t'
  | 'n' => pure '\n'
  | 'f' => pure '\x0c'
  | 'r' => pure '\r'
  | '"' => pure '"'
  | '\\' => pure '\\'
  | 'u' => scalar 4
  | 'U' => scalar 8
  | _ => failure

/-! ## Strings -/

/-- Reads a character that stands for itself in a string with escapes. -/
def plainChar : Reader Char := one fun c => isPrinting c && c ≠ '"' && c ≠ '\\'

/-- Reads a character that stands for itself in a string without escapes. -/
def literalChar : Reader Char := one fun c => isPrinting c && c ≠ '\''

/-- Reads a string with escapes on one line. -/
def basicString : Reader (List Char) := do
  word ['"']
  let text ← many (plainChar <|> escape)
  word ['"']
  pure text

/-- Reads a string without escapes on one line. -/
def literalString : Reader (List Char) := do
  word ['\'']
  let text ← many literalChar
  word ['\'']
  pure text

/-- Reads one or two quotes that are followed by other characters. -/
def innerQuotes (quote : Char) : Reader (List Char) :=
  let quotes (count : Nat) : Reader (List Char) := do
    word (List.replicate count quote)
    ahead (· ≠ quote)
    pure (List.replicate count quote)
  quotes 2 <|> quotes 1

/-- Reads the three quotes that end a string and up to two quotes before them, which belong to
it. -/
def closingQuotes (quote : Char) : Reader (List Char) :=
  let quotes (count : Nat) : Reader (List Char) := do
    word (List.replicate (count + 3) quote)
    pure (List.replicate count quote)
  quotes 2 <|> quotes 1 <|> quotes 0

/-- Reads a backslash at the end of a line and everything blank behind it. -/
def lineContinuation : Reader (List Char) := do
  word ['\\']
  spaces
  newline
  let _ ← many ((do let _ ← nonemptyRun isSpace) <|> newline)
  pure []

/-- Reads a string between three quotes on each side. A line end right behind the first three is
left out. -/
def multilineString (quote : Char) (piece : Reader (List Char)) : Reader (List Char) := do
  word [quote, quote, quote]
  let _ ← perhaps newline
  let lineBreak : Reader (List Char) := do
    newline
    pure ['\n']
  let text ← many (piece <|> lineBreak <|> innerQuotes quote)
  let last ← closingQuotes quote
  pure (text.flatten ++ last)

/-- Reads a character as a text. -/
def single (item : Reader Char) : Reader (List Char) := do
  let c ← item
  pure [c]

/-- Reads a string of any form. -/
def string : Reader (List Char) :=
  multilineString '"' (single plainChar <|> lineContinuation <|> single escape)
    <|> basicString
    <|> multilineString '\'' (single literalChar)
    <|> literalString

end ServiceAnnotator.Toml
