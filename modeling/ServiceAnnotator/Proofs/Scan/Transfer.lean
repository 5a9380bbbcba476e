import ServiceAnnotator.Proofs.Scan.Reading

/-!
# Reading the same token in front of another text

A token that the scanner reads in front of one text is read in front of every text that is alike,
and a token that ends its line is read in front of almost any text. So a change far behind a token
does not reach it, and a change directly behind it matters only where both stand on one line.
-/

namespace ServiceAnnotator

open Scan (Alike startsWith startsWith_eq_false_of_alike isInlineBlank isLineBreak)

/-! ## Trivia -/

theorem Piece.Ends.of_alike {piece : Piece} {after after' : List Char} (ends : piece.Ends after)
    (alike : Alike after after') : piece.Ends after' := by
  obtain ⟨kind, text⟩ := piece
  cases kind with
  | whitespace => exact startsWith_eq_false_of_alike alike isInlineBlank (by decide) ends
  | newline =>
    intro carriage
    exact startsWith_eq_false_of_alike alike (· == '\n') (by decide) (ends carriage)
  | lineComment => exact startsWith_eq_false_of_alike alike (!isLineBreak ·) (by decide) ends

/-- Where no trivia stands, none stands in a text that is alike. -/
theorem Scan.piece?_eq_none_of_alike {after after' : List Char} (alike : Alike after after')
    (nothing : piece? after = none) : piece? after' = none := by
  cases after' with
  | nil => rfl
  | cons d ds =>
    cases after with
    | nil => cases alike
    | cons c cs =>
      rw [piece?_cons_eq_none_iff] at nothing ⊢
      obtain ⟨noFeed, noReturn, noBlank, noComment⟩ := nothing
      cases alike with
      | refl => exact ⟨noFeed, noReturn, noBlank, noComment⟩
      | atSign => exact ⟨by decide, by decide, by decide, fun same => absurd same (by decide)⟩
      | shield _ _ shielded =>
        refine ⟨noFeed, noReturn, noBlank, ?_⟩
        rintro rfl
        exact absurd shielded (by decide)
      | carriageReturn => exact absurd rfl noReturn
      | cons _ inner =>
        refine ⟨noFeed, noReturn, noBlank, fun slash => ?_⟩
        exact startsWith_eq_false_of_alike inner (· == '/') (by decide) (noComment slash)

namespace Trivia

theorem Leads.of_alike {pieces : Trivia} {after after' : List Char} (leads : pieces.Leads after)
    (alike : Alike after after') : pieces.Leads after' := by
  induction pieces with
  | nil => exact Scan.piece?_eq_none_of_alike alike leads
  | cons piece pieces ih =>
    obtain ⟨valid, ends, behind⟩ := leads
    exact ⟨valid, ends.of_alike (alike.append_left _), ih behind⟩

theorem Trails.of_alike {pieces : Trivia} {after after' : List Char} (trails : pieces.Trails after)
    (alike : Alike after after') : pieces.Trails after' := by
  induction pieces with
  | nil => exact Scan.piece?_eq_none_of_alike alike trails
  | cons piece pieces ih =>
    obtain ⟨valid, ends, behind⟩ := trails
    refine ⟨valid, ends.of_alike (alike.append_left _), ?_⟩
    split
    · rename_i newline
      rwa [if_pos newline] at behind
    · rename_i inLine
      rw [if_neg inLine] at behind
      exact ih behind

/-- Trivia in front of a lexeme leaves none in front of the lexeme. -/
theorem Leads.piece?_eq_none {pieces : Trivia} {after : List Char} (leads : pieces.Leads after) :
    Scan.piece? after = none := by
  induction pieces with
  | nil => exact leads
  | cons piece pieces ih => exact ih leads.2.2

/-- Trivia in front of a lexeme is all there is. -/
theorem Leads.eq_nil {pieces : Trivia} {after : List Char} (leads : pieces.Leads after)
    (nothing : Scan.piece? (pieces.text ++ after) = none) : pieces = [] := by
  cases pieces with
  | nil => rfl
  | cons piece pieces =>
    obtain ⟨valid, ends, _⟩ := leads
    have found : Scan.piece? (text (piece :: pieces) ++ after) =
        some (piece, text pieces ++ after) := by
      rw [Scan.piece?_eq_some_iff, text_cons, List.append_assoc]
      exact ⟨rfl, valid, ends⟩
    rw [found] at nothing
    cases nothing

/-- Trivia behind a lexeme ends with a line break or in front of a lexeme. -/
theorem Trails.endsLine_or {pieces : Trivia} {after : List Char} (trails : pieces.Trails after) :
    pieces.EndsLine ∨ Scan.piece? after = none := by
  induction pieces with
  | nil => exact .inr trails
  | cons piece pieces ih =>
    obtain ⟨_, _, behind⟩ := trails
    split at behind
    · rename_i newline
      subst behind
      exact .inl newline
    · rcases ih behind with endsLine | nothing
      · cases pieces with
        | nil => exact endsLine.elim
        | cons next pieces => exact .inl endsLine
      · exact .inr nothing

/-- Trivia that ends with a line break hides what follows, unless a line feed joins it. -/
theorem Trails.of_endsLine {pieces : Trivia} {after after' : List Char}
    (trails : pieces.Trails after) (endsLine : pieces.EndsLine)
    (noFeed : startsWith (· == '\n') after' = false) :
    pieces.Trails after' ∧ Alike (pieces.text ++ after) (pieces.text ++ after') := by
  induction pieces with
  | nil => exact endsLine.elim
  | cons piece pieces ih =>
    obtain ⟨valid, ends, behind⟩ := trails
    by_cases newline : piece.kind = .newline
    · rw [if_pos newline] at behind
      subst behind
      obtain ⟨kind, lexeme⟩ := piece
      subst newline
      refine ⟨⟨valid, fun _ => noFeed, rfl⟩, ?_⟩
      rcases valid with rfl | rfl | rfl
      · exact .shield _ _ (by decide)
      · exact .cons _ (.shield _ _ (by decide))
      · exact .carriageReturn (ends rfl) noFeed
    · rw [if_neg newline] at behind
      have further : EndsLine pieces := by
        cases pieces with
        | nil => exact absurd endsLine newline
        | cons next pieces => exact endsLine
      obtain ⟨trailsBehind, alike⟩ := ih behind further
      rw [text_cons, List.append_assoc, List.append_assoc]
      refine ⟨⟨valid, ends.of_alike alike, ?_⟩, alike.append_left _⟩
      rw [if_neg newline]
      exact trailsBehind

end Trivia

/-! ## Tokens -/

namespace Token

/-- A lexeme ends in front of what is alike. -/
theorem Reads.ends_of_alike {token : Token} {after text : List Char} (reads : token.Reads after)
    (alike : Alike (token.trailing.text ++ after) text) :
    ∀ first rest, token.lexeme = first :: rest →
      Scan.lexemeTail first (rest ++ text) = (token.kind, rest.length) :=
  fun first rest lexemeEq =>
    Scan.stable_lexemeTail first rest alike (reads.ends first rest lexemeEq)

/-- A token is read in front of every text that is alike. -/
theorem Reads.of_alike {token : Token} {after after' : List Char} (reads : token.Reads after)
    (alike : Alike after after') : token.Reads after' where
  some := reads.some
  leads := reads.leads.of_alike ((alike.append_left _).append_left _)
  ends := reads.ends_of_alike (alike.append_left _)
  trails := reads.trails.of_alike alike

/-- A token that ends its line is read in front of every text that does not start with a line
feed. -/
theorem Reads.of_endsLine {token : Token} {after after' : List Char} (reads : token.Reads after)
    (endsLine : token.trailing.EndsLine) (noFeed : startsWith (· == '\n') after' = false) :
    token.Reads after' ∧ Alike (token.text ++ after) (token.text ++ after') := by
  obtain ⟨trails, alike⟩ := reads.trails.of_endsLine endsLine noFeed
  refine ⟨⟨reads.some, ?_, reads.ends_of_alike alike, trails⟩, ?_⟩
  · exact reads.leads.of_alike (alike.append_left _)
  · simp only [text, List.append_assoc]
    exact (alike.append_left _).append_left _

/-- A token without trivia in front starts with its lexeme. -/
theorem Reads.piece?_eq_none {token : Token} {after : List Char} (reads : token.Reads after)
    (bare : token.leading = []) : Scan.piece? (token.text ++ after) = none := by
  have nothing := reads.leads.piece?_eq_none
  rwa [text, bare, Trivia.text_nil, List.nil_append, List.append_assoc]

/-- Without the trivia in front a token is still read. -/
theorem Reads.withoutLeading {token : Token} {after : List Char} (reads : token.Reads after) :
    token.withoutLeading.Reads after :=
  ⟨reads.some, reads.leads.piece?_eq_none, reads.ends, reads.trails⟩

end Token

namespace TokenStream

/-- Tokens that follow each other are read in front of every text that is alike. -/
theorem Tiles.of_alike {tokens : List Token} {after after' : List Char}
    (tiles : Tiles tokens after) (alike : Alike after after') : Tiles tokens after' := by
  induction tokens with
  | nil => trivial
  | cons token tokens ih =>
    exact ⟨tiles.1.of_alike (alike.append_left _), ih tiles.2⟩

end TokenStream

end ServiceAnnotator
