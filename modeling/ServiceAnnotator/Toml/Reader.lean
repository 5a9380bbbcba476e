/-!
# Readers

A reader takes a value off the front of a text or refuses the text. Where two readers are tried in
turn, the second one starts where the first one did.
-/

namespace ServiceAnnotator.Toml

/-- A reader of values of a type. -/
abbrev Reader := StateT (List Char) Option

namespace Reader

variable {α β : Type}

/-- Reads a character that passes a test. -/
def one (test : Char → Bool) : Reader Char
  | [] => none
  | c :: cs => if test c then some (c, cs) else none

/-- Reads all characters at the front that pass a test. -/
def run (test : Char → Bool) : Reader (List Char) := fun cs =>
  some (cs.takeWhile test, cs.dropWhile test)

/-- Reads all characters at the front that pass a test, of which there has to be one. -/
def nonemptyRun (test : Char → Bool) : Reader (List Char) := do
  let first ← one test
  let others ← run test
  pure (first :: others)

/-- Reads a given text. -/
def word : List Char → Reader Unit
  | [] => pure ()
  | c :: cs => do
    let _ ← one (· = c)
    word cs

/-- Reads nothing, in front of a character that passes a test or of the end of the text. -/
def ahead (test : Char → Bool) : Reader Unit := fun cs =>
  if cs.head?.all test then some ((), cs) else none

/-- Reads nothing at the end of the text. -/
def ended : Reader Unit := fun cs => if cs.isEmpty then some ((), cs) else none

/-- Reads the same again and again, as long as it goes on. -/
def repeated (item : Reader α) (cs : List Char) : List α × List Char :=
  match item cs with
  | none => ([], cs)
  | some (a, rest) =>
    if _ : rest.length < cs.length then
      let (others, rest) := repeated item rest
      (a :: others, rest)
    else ([], cs)
termination_by cs.length

/-- Reads the same any number of times. -/
def many (item : Reader α) : Reader (List α) := fun cs => some (repeated item cs)

/-- Reads the same once or more often, with a separator between two. -/
def separated (item : Reader α) (separator : Reader β) : Reader (List α) := do
  let first ← item
  let others ← many (do
    let _ ← separator
    item)
  pure (first :: others)

/-- Reads with a reader if it does not refuse. -/
def perhaps (item : Reader α) : Reader (Option α) := (some <$> item) <|> pure none

end Reader

end ServiceAnnotator.Toml
