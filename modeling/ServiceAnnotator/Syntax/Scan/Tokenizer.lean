import ServiceAnnotator.Syntax.Scan.Stream

/-!
# Tokens one by one

A tokenizer has read one token ahead. Each step gives this token and reads the next one, so that
tokens are read only as far as they are asked for. At the end of a text it gives the end of the file
as often as it is asked.
-/

namespace ServiceAnnotator

/-- The token that was read ahead, the position behind it and the text from there on. -/
structure Tokenizer where
  current : PlacedToken
  position : Nat
  rest : List Char

namespace Tokenizer

/-- The token in front of some text, read ahead. -/
def readAhead (start : Nat) (token : Token) (rest : List Char) : Tokenizer :=
  ⟨⟨start, token⟩, start + token.byteLength, rest⟩

/-- Reads the token at the front of a text that starts at a position. -/
def read (start : Nat) (cs : List Char) : Tokenizer :=
  match Scan.leading cs with
  | (pieces, []) => readAhead start ⟨pieces, .endOfFile, [], []⟩ []
  | (pieces, c :: rest) =>
    let (kind, length) := Scan.lexemeTail c rest
    let (behind, after) := Scan.trailing (rest.drop length)
    readAhead start ⟨pieces, kind, c :: rest.take length, behind⟩ after

/-- The tokenizer of a text. -/
def ofText (text : List Char) : Tokenizer := read 0 text

/-- The tokenizer behind its current token. -/
def next (tokenizer : Tokenizer) : Tokenizer := read tokenizer.position tokenizer.rest

/-- The tokenizer after a number of steps. -/
def after (tokenizer : Tokenizer) : Nat → Tokenizer
  | 0 => tokenizer
  | steps + 1 => tokenizer.next.after steps

/-- The kind of the current token. -/
def kind (tokenizer : Tokenizer) : Kind := tokenizer.current.token.kind

/-- Reading takes a token off the text, if there is any text. -/
theorem length_rest_read_lt {cs : List Char} (some : cs ≠ []) (start : Nat) :
    (read start cs).rest.length < cs.length := by
  rw [read]
  split
  · exact List.length_pos_iff.mpr some
  · rename_i found
    exact Scan.length_trailing_drop_lt found _

/-- Number of tokens up to the end of the file. -/
def ahead (tokenizer : Tokenizer) : Nat :=
  if tokenizer.kind = .endOfFile then 0
  else if _ : tokenizer.rest = [] then 1
  else 1 + tokenizer.next.ahead
termination_by tokenizer.rest.length
decreasing_by exact length_rest_read_lt ‹_› _

end Tokenizer

end ServiceAnnotator
