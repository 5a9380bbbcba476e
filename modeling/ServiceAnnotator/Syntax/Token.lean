import ServiceAnnotator.Syntax.Kind
import ServiceAnnotator.Syntax.Trivia
import ServiceAnnotator.Text.Span

/-!
# Tokens

A token carries the trivia in front of it and behind it. Its text is the three parts in order.
-/

namespace ServiceAnnotator

/-- A significant word of the source with the trivia that belongs to it. -/
structure Token where
  leading : Trivia
  kind : Kind
  /-- The significant text, without trivia. -/
  lexeme : List Char
  trailing : Trivia
  deriving DecidableEq, Repr

instance : Kinded Token where
  kind := Token.kind

namespace Token

/-- A token without trivia. -/
def bare (kind : Kind) (lexeme : List Char) : Token := ⟨[], kind, lexeme, []⟩

/-- The whole text, trivia included. -/
def text (token : Token) : List Char :=
  token.leading.text ++ token.lexeme ++ token.trailing.text

/-- Number of bytes of the whole text. -/
def byteLength (token : Token) : Nat := Text.byteLength token.text

/-- The token with other trivia in front. -/
def withLeading (leading : Trivia) (token : Token) : Token := { token with leading }

/-- The token with other trivia behind. -/
def withTrailing (trailing : Trivia) (token : Token) : Token := { token with trailing }

/-- The token without the trivia in front. -/
def withoutLeading (token : Token) : Token := token.withLeading []

/-- The token without the trivia behind. -/
def withoutTrailing (token : Token) : Token := token.withTrailing []

/-- Where the significant text lies when the token starts at a position. -/
def lexemeSpan (start : Nat) (token : Token) : Span :=
  .ofLength (start + token.leading.byteLength) (Text.byteLength token.lexeme)

end Token

/-- A token together with the position of its first byte, trivia included. -/
structure PlacedToken where
  start : Nat
  token : Token
  deriving DecidableEq, Repr

instance : Kinded PlacedToken where
  kind placed := placed.token.kind

namespace PlacedToken

/-- Where the token lies with its trivia. -/
def span (placed : PlacedToken) : Span := .ofLength placed.start placed.token.byteLength

/-- Where the significant text of the token lies. -/
def lexemeSpan (placed : PlacedToken) : Span := placed.token.lexemeSpan placed.start

/-- Tokens that follow each other without a gap, from a position on. -/
def sequence (start : Nat) : List Token → List PlacedToken
  | [] => []
  | token :: tokens => ⟨start, token⟩ :: sequence (start + token.byteLength) tokens

end PlacedToken

end ServiceAnnotator
