import ServiceAnnotator.Proofs.Text.Tiling
import ServiceAnnotator.Syntax.Token

/-!
# Texts of trivia and tokens

Trivia that was made from a text gives the text back, and a token has the text of its three parts.
-/

namespace ServiceAnnotator

namespace Trivia

@[simp] theorem text_append (left right : Trivia) :
    text (left ++ right) = text left ++ text right := by
  simp [text]

/-- Classifying blanks and line breaks loses none of them. -/
@[simp] theorem text_layout (cs : List Char) : text (layout cs) = cs := by
  fun_induction layout cs with
  | case1 => rfl
  | case2 cs ih => simp [ih]
  | case3 cs _ ih => simp [ih]
  | case4 cs ih => simp [ih]
  | case5 c cs _ _ _ blanks pieces found ih =>
    rw [found] at ih
    simpa using ih
  | case6 c cs _ _ _ _ ih => simpa using ih

end Trivia

namespace Token

@[simp] theorem text_bare (kind : Kind) (lexeme : List Char) : (bare kind lexeme).text = lexeme := by
  simp [bare, text]

@[simp] theorem withLeading_leading (token : Token) : token.withLeading token.leading = token := rfl

@[simp] theorem withTrailing_trailing (token : Token) :
    token.withTrailing token.trailing = token := rfl

@[simp] theorem text_withLeading (leading : Trivia) (token : Token) :
    (token.withLeading leading).text = leading.text ++ token.lexeme ++ token.trailing.text := rfl

@[simp] theorem text_withTrailing (trailing : Trivia) (token : Token) :
    (token.withTrailing trailing).text = token.leading.text ++ token.lexeme ++ trailing.text := rfl

/-- The parts of a token one behind the other, in front of a text. -/
theorem text_append (token : Token) (after : List Char) :
    token.text ++ after = token.leading.text ++ (token.lexeme ++ (token.trailing.text ++ after)) := by
  simp [text]

/-- A token's text is its leading trivia and its text without them. -/
theorem text_eq_leading_append (token : Token) :
    token.text = token.leading.text ++ token.withoutLeading.text := by
  simp [text, withoutLeading, withLeading]

/-- Trivia that is put in front of tokens shows in front of their text. -/
theorem text_modifyHead_withLeading {tokens : List Token}
    (bare : tokens.head?.map Token.leading = some []) (leading : Trivia) :
    (tokens.modifyHead (withLeading leading)).flatMap text =
      leading.text ++ tokens.flatMap text := by
  cases tokens with
  | nil => simp at bare
  | cons first others =>
    have firstBare : first.leading = [] := by simpa using bare
    simp [text, withLeading, firstBare]

end Token

namespace PlacedToken

@[simp] theorem map_token_sequence (start : Nat) (tokens : List Token) :
    (sequence start tokens).map PlacedToken.token = tokens := by
  induction tokens generalizing start with
  | nil => rfl
  | cons token tokens ih => simp [sequence, ih]

@[simp] theorem length_sequence (start : Nat) (tokens : List Token) :
    (sequence start tokens).length = tokens.length := by
  rw [← List.length_map PlacedToken.token, map_token_sequence]

@[simp] theorem sequence_append (start : Nat) (left right : List Token) :
    sequence start (left ++ right) =
      sequence start left ++ sequence (start + Text.byteLength (left.flatMap Token.text)) right := by
  induction left generalizing start with
  | nil => simp [sequence]
  | cons token tokens ih =>
    simp [sequence, ih, Token.byteLength, Nat.add_assoc]

/-- Tokens that follow each other tile the range of their text. -/
theorem tile_sequence (start : Nat) (tokens : List Token) :
    Span.Tile start ((sequence start tokens).map span)
      (start + Text.byteLength (tokens.flatMap Token.text)) := by
  induction tokens generalizing start with
  | nil => rfl
  | cons token tokens ih =>
    rw [sequence, List.map_cons, span, Span.tile_cons_ofLength, List.flatMap_cons,
      Text.byteLength_append, ← Nat.add_assoc]
    exact ih (start + token.byteLength)

end PlacedToken

end ServiceAnnotator
