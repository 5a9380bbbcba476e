import ServiceAnnotator.Toml.Number
import ServiceAnnotator.Toml.Table

/-!
# Documents of TOML

A document is read line by line into pairs and sections, and these are put together to the tables
they describe.
-/

namespace ServiceAnnotator.Toml

open Reader

/-- The number of arrays and tables that may be written inside each other, and of parts in front of
the last one in a key. -/
def maxDepth : Nat := 79

/-- Whether a character may stand in a key without quotes. -/
def isBare (c : Char) : Bool := c.isAlphanum || c = '_' || c = '-'

/-- Reads a part of a key and the blanks around it. -/
def keyPart : Reader Key := do
  spaces
  let part ← basicString <|> literalString <|> nonemptyRun isBare
  spaces
  pure part

/-- Reads a key. -/
def key : Reader KeyPath := do
  let parts ← separated keyPart (word ['.'])
  if parts.length ≤ maxDepth then pure ⟨parts.dropLast, parts.getLast?.getD []⟩ else failure

/-- Reads a value that has no values in it. -/
def simpleValue : Reader Item :=
  Item.text <$> string
    <|> (do
      moment
      pure .moment)
    <|> (do
      number <|> word ['t', 'r', 'u', 'e'] <|> word ['f', 'a', 'l', 's', 'e']
      pure .scalar)

/-- Reads an array. Values are separated by commas, and one may follow the last value. -/
def array (value : Reader Item) : Reader Item := do
  word ['[']
  let spaced : Reader Item := do
    gap
    let item ← value
    gap
    pure item
  let items ← perhaps (separated spaced (word [',']))
  if items.isSome then
    let _ ← perhaps (word [','])
  gap
  word [']']
  pure (.array (items.getD []))

/-- Reads a table that is written as a value, on one line. -/
def inlineTable (value : Reader Item) : Reader Item := do
  word ['\x7b']
  let pair : Reader Pair := do
    let path ← key
    word ['=']
    spaces
    let item ← value
    spaces
    pure ⟨path, item⟩
  let pairs ← perhaps (separated pair (word [',']))
  spaces
  word ['\x7d']
  match Entries.addPairs [] (pairs.getD []) with
  | some entries => pure (.table .value entries)
  | none => failure

/-- Reads a value in which values may be written up to some depth inside each other. -/
def value : Nat → Reader Item
  | 0 => simpleValue
  | depth + 1 => simpleValue <|> array (value depth) <|> inlineTable (value depth)

/-- What a line of a document says. -/
inductive Line where
  | blank
  | pair (pair : Pair)
  | header (header : Header)

/-- Reads a header. -/
def header : Reader Header :=
  (do
    word ['[', '[']
    let path ← key
    word [']', ']']
    lineEnd
    pure (.tables path)) <|> (do
    word ['[']
    let path ← key
    word [']']
    lineEnd
    pure (.table path))

/-- Reads a line with a key and a value. -/
def pair : Reader Pair := do
  let path ← key
  word ['=']
  spaces
  let item ← value maxDepth
  lineEnd
  pure ⟨path, item⟩

/-- Reads a line and the blanks in front of the next one. -/
def line : Reader Line := do
  let found ←
    (do
      comment
      newline <|> ended
      pure Line.blank) <|> (do
      newline
      pure Line.blank) <|> (Line.header <$> header) <|> (Line.pair <$> pair)
  spaces
  pure found

/-- The pairs before the first header among lines, and the sections. -/
def sectionsOf : List Line → List Pair × List Section
  | [] => ([], [])
  | .blank :: lines => sectionsOf lines
  | .pair pair :: lines =>
    let (pairs, sections) := sectionsOf lines
    (pair :: pairs, sections)
  | .header header :: lines =>
    let (pairs, sections) := sectionsOf lines
    ([], ⟨header, pairs⟩ :: sections)

/-- Reads all lines of a document. -/
def lines : Reader (List Line) := do
  let _ ← perhaps (word ['\ufeff'])
  spaces
  let found ← many line
  ended
  pure found

/-- The entries of a document, if it is well formed. -/
def document? (text : List Char) : Option Entries := do
  let (found, _) ← lines text
  let (pairs, sections) := sectionsOf found
  Entries.ofSections? pairs sections

end ServiceAnnotator.Toml
