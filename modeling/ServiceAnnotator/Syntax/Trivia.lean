import ServiceAnnotator.Text.Bytes

/-!
# Trivia

Whitespace, line breaks and comments have no meaning to the grammar. They are kept as pieces on the
tokens around them, so that a tree gives back its text byte for byte.
-/

namespace ServiceAnnotator

/-- Sorts of trivia. -/
inductive PieceKind where
  | whitespace
  | newline
  | lineComment
  deriving DecidableEq, Repr

/-- A piece of trivia and its text. -/
structure Piece where
  kind : PieceKind
  text : List Char
  deriving DecidableEq, Repr

/-- A run of trivia, piece by piece. -/
abbrev Trivia := List Piece

namespace Trivia

/-- The text that a run of trivia covers. -/
def text (trivia : Trivia) : List Char := trivia.flatMap Piece.text

/-- Number of bytes that a run of trivia covers. -/
def byteLength (trivia : Trivia) : Nat := Text.byteLength trivia.text

@[simp] theorem text_nil : text [] = [] := rfl

@[simp] theorem text_cons (piece : Piece) (trivia : Trivia) :
    text (piece :: trivia) = piece.text ++ text trivia := rfl

/-- The pieces of a text that consists of blanks and line breaks. A line break is `"\n"`, `"\r\n"`
or a lone `"\r"`, and blanks between line breaks form one piece. -/
def layout : List Char → Trivia
  | [] => []
  | '\r' :: '\n' :: cs => ⟨.newline, ['\r', '\n']⟩ :: layout cs
  | '\r' :: cs => ⟨.newline, ['\r']⟩ :: layout cs
  | '\n' :: cs => ⟨.newline, ['\n']⟩ :: layout cs
  | c :: cs =>
    match layout cs with
    | ⟨.whitespace, blanks⟩ :: pieces => ⟨.whitespace, c :: blanks⟩ :: pieces
    | pieces => ⟨.whitespace, [c]⟩ :: pieces

end Trivia

end ServiceAnnotator
