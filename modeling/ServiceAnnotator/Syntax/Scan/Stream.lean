import ServiceAnnotator.Syntax.Scan.Lexeme
import ServiceAnnotator.Syntax.Token

/-!
# Token streams

Scanning cuts a text into tokens. The trivia behind a token runs up to and including the first line
break; all other trivia belongs to the token that follows. The end of the file is a token of its own
that keeps the trivia at the end of the text.
-/

namespace ServiceAnnotator

namespace Scan

/-- Blanks that may stand inside a line. -/
def isInlineBlank (c : Char) : Bool := c == ' ' || c == '\t' || c == '\x0c'

/-- The piece of trivia at the front of a text, and the text behind it. -/
def piece? : List Char → Option (Piece × List Char)
  | [] => none
  | '/' :: '/' :: cs =>
    some (⟨.lineComment, '/' :: '/' :: cs.takeWhile (!isLineBreak ·)⟩, cs.dropWhile (!isLineBreak ·))
  | '\n' :: cs => some (⟨.newline, ['\n']⟩, cs)
  | '\r' :: '\n' :: cs => some (⟨.newline, ['\r', '\n']⟩, cs)
  | '\r' :: cs => some (⟨.newline, ['\r']⟩, cs)
  | c :: cs =>
    if isInlineBlank c then
      some (⟨.whitespace, c :: cs.takeWhile isInlineBlank⟩, cs.dropWhile isInlineBlank)
    else none

theorem length_dropWhile_le (p : Char → Bool) (cs : List Char) :
    (cs.dropWhile p).length ≤ cs.length :=
  (List.dropWhile_sublist p).length_le

/-- A piece of trivia takes at least one character. -/
theorem length_lt_of_piece? {cs rest : List Char} {piece : Piece}
    (found : piece? cs = some (piece, rest)) : rest.length < cs.length := by
  unfold piece? at found
  split at found
  · simp at found
  · obtain ⟨rfl, rfl⟩ := found
    have := length_dropWhile_le (!isLineBreak ·) ‹List Char›
    simp only [List.length_cons]
    omega
  · obtain ⟨rfl, rfl⟩ := found
    simp
  · obtain ⟨rfl, rfl⟩ := found
    simp only [List.length_cons]
    omega
  · obtain ⟨rfl, rfl⟩ := found
    simp
  · split at found
    · obtain ⟨rfl, rfl⟩ := found
      have := length_dropWhile_le isInlineBlank ‹List Char›
      simp only [List.length_cons]
      omega
    · simp at found

/-- All trivia at the front of a text, and the text behind it. -/
def leading (cs : List Char) : Trivia × List Char :=
  match found : piece? cs with
  | none => ([], cs)
  | some (piece, rest) =>
    have := length_lt_of_piece? found
    let (pieces, after) := leading rest
    (piece :: pieces, after)
termination_by cs.length

/-- The trivia at the front of a text up to and including the first line break, and the text behind
it. -/
def trailing (cs : List Char) : Trivia × List Char :=
  match found : piece? cs with
  | none => ([], cs)
  | some (piece, rest) =>
    have := length_lt_of_piece? found
    if piece.kind = .newline then ([piece], rest)
    else
      let (pieces, after) := trailing rest
      (piece :: pieces, after)
termination_by cs.length

theorem length_leading_le (cs : List Char) : (leading cs).2.length ≤ cs.length := by
  fun_induction leading cs with
  | case1 => simp
  | case2 _ _ _ found shorter pieces after next ih =>
    simp only [next] at ih
    simp only
    omega

theorem length_trailing_le (cs : List Char) : (trailing cs).2.length ≤ cs.length := by
  fun_induction trailing cs with
  | case1 => simp
  | case2 _ _ _ _ shorter => simpa using Nat.le_of_lt shorter
  | case3 _ _ _ _ shorter _ pieces after next ih =>
    simp only [next] at ih
    simp only
    omega

/-- What is left behind a token and its trivia is shorter than the text in front of it. -/
theorem length_trailing_drop_lt {cs rest : List Char} {c : Char} {pieces : Trivia}
    (found : leading cs = (pieces, c :: rest)) (count : Nat) :
    (trailing (rest.drop count)).2.length < cs.length := by
  have front := length_leading_le cs
  have back := length_trailing_le (rest.drop count)
  simp only [found, List.length_cons, List.length_drop] at front back
  omega

end Scan

/-- The tokens of a text: those with a significant text, and the end of the file. -/
structure TokenStream where
  tokens : List Token
  endOfFile : Token
  deriving DecidableEq, Repr

namespace TokenStream

/-- Cuts a text into tokens. -/
def scan (cs : List Char) : TokenStream :=
  match _ : Scan.leading cs with
  | (pieces, []) => ⟨[], ⟨pieces, .endOfFile, [], []⟩⟩
  | (pieces, c :: rest) =>
    let (kind, length) := Scan.lexemeTail c rest
    let behind := Scan.trailing (rest.drop length)
    let stream := scan behind.2
    ⟨⟨pieces, kind, c :: rest.take length, behind.1⟩ :: stream.tokens, stream.endOfFile⟩
termination_by cs.length
decreasing_by exact Scan.length_trailing_drop_lt ‹_› _

/-- All tokens in order; the last one is the end of the file. -/
def all (stream : TokenStream) : List Token := stream.tokens ++ [stream.endOfFile]

/-- The text that a stream covers. -/
def text (stream : TokenStream) : List Char := stream.all.flatMap Token.text

/-- All tokens with their positions. -/
def placed (stream : TokenStream) : List PlacedToken := PlacedToken.sequence 0 stream.all

/-- The token at an index with its position. Past the end there is nothing but the end of the file,
without trivia. -/
def get (stream : TokenStream) (index : Nat) : PlacedToken :=
  stream.placed.getD index ⟨Text.byteLength stream.text, .bare .endOfFile []⟩

end TokenStream

end ServiceAnnotator
