import Mathlib.Data.List.Basic
import ServiceAnnotator.Proofs.Scan.Name

/-!
# Texts one behind the other

Where a text ends with a line feed, the scanner reads its tokens in front of any other text as it
reads them alone. Only the trivia at the end of the first text, which no token takes, goes to the
first token of the second one. The last token has to be a mark, for a literal that lacks its quote
would run on over the line feed.
-/

namespace ServiceAnnotator

open Scan (Alike punctuation)

/-! ## Line feeds -/

namespace Scan

/-- Whether a text is empty or ends with a line feed. -/
def Terminated (cs : List Char) : Prop := ∀ last ∈ cs.getLast?, last = '\n'

theorem Terminated.getLast?_eq {cs : List Char} (terminated : Terminated cs) (nonempty : cs ≠ []) :
    cs.getLast? = some '\n' := by
  have isLast := List.getLast?_eq_some_getLast nonempty
  rw [isLast, terminated _ isLast]

theorem Terminated.of_append {front back : List Char} (terminated : Terminated (front ++ back)) :
    Terminated back :=
  fun _ isLast => terminated _ (List.mem_getLast?_append_of_mem_getLast? isLast)

/-- Nothing behind a line feed matters in front of it. -/
theorem alike_of_feed {cs : List Char} (feed : cs.getLast? = some '\n') (after after' : List Char) :
    Alike (cs ++ after) (cs ++ after') := by
  obtain ⟨front, rfl⟩ := List.getLast?_eq_some_iff.mp feed
  rw [List.append_assoc, List.append_assoc]
  exact .append_left front (.shield after after' (by decide))

end Scan

open Scan (Terminated alike_of_feed)

/-! ## Trivia -/

namespace Piece

theorem Valid.text_ne_nil {piece : Piece} (valid : piece.Valid) : piece.text ≠ [] := by
  obtain ⟨kind, text⟩ := piece
  cases kind with
  | whitespace => exact valid.1
  | newline => rcases valid with rfl | rfl | rfl <;> simp
  | lineComment =>
    obtain ⟨cs, rfl, _⟩ := valid
    simp

/-- Only a line break ends with a line feed. -/
theorem Valid.isNewline {piece : Piece} (valid : piece.Valid)
    (feed : piece.text.getLast? = some '\n') : piece.kind = .newline := by
  have inside := List.mem_of_getLast? feed
  obtain ⟨kind, text⟩ := piece
  cases kind with
  | whitespace => exact absurd (valid.2 _ inside) (by decide)
  | newline => rfl
  | lineComment =>
    obtain ⟨cs, rfl, inLine⟩ := valid
    simp only [List.mem_cons, Char.reduceEq, false_or] at inside
    exact absurd (inLine _ inside) (by decide)

theorem Ends.of_feed {piece : Piece} (valid : piece.Valid) (feed : piece.text.getLast? = some '\n')
    (after : List Char) : piece.Ends after := by
  rw [Ends, valid.isNewline feed]
  intro carriage
  rw [carriage] at feed
  cases feed

end Piece

namespace Trivia

variable {piece : Piece} {pieces : Trivia} {after : List Char}

/-- A piece that ends in front of nothing but terminated trivia ends in front of every text behind
the trivia. -/
theorem ends_of_terminated (valid : piece.Valid) (ends : piece.Ends (text pieces ++ []))
    (terminated : Terminated (text (piece :: pieces))) (after : List Char) :
    piece.Ends (text pieces ++ after) := by
  by_cases last : text pieces = []
  · rw [text_cons, last, List.append_nil] at terminated
    exact .of_feed valid (terminated.getLast?_eq valid.text_ne_nil) _
  · exact ends.of_alike (alike_of_feed (terminated.of_append.getLast?_eq last) _ _)

/-- Terminated trivia at the end of a text joins the trivia that follows. -/
theorem Leads.append {more : Trivia} (leads : pieces.Leads []) (terminated : Terminated pieces.text)
    (further : more.Leads after) : Leads (pieces ++ more) after := by
  induction pieces with
  | nil => exact further
  | cons piece pieces ih =>
    obtain ⟨valid, ends, behind⟩ := leads
    refine ⟨valid, ?_, ih behind terminated.of_append⟩
    show piece.Ends (text (pieces ++ more) ++ after)
    rw [text_append, List.append_assoc]
    exact ends_of_terminated valid ends terminated _

/-- Terminated trivia behind the last lexeme of a text ends there in front of every text. -/
theorem Trails.of_terminated (trails : pieces.Trails []) (terminated : Terminated pieces.text)
    (some : pieces ≠ []) (after : List Char) : pieces.Trails after := by
  induction pieces with
  | nil => exact absurd rfl some
  | cons piece pieces ih =>
    obtain ⟨valid, ends, behind⟩ := trails
    refine ⟨valid, ends_of_terminated valid ends terminated after, ?_⟩
    split
    · rename_i newline
      rwa [if_pos newline] at behind
    · rename_i inLine
      rw [if_neg inLine] at behind
      refine ih behind terminated.of_append ?_
      rintro rfl
      rw [text_cons, text_nil, List.append_nil] at terminated
      exact inLine (valid.isNewline (terminated.getLast?_eq valid.text_ne_nil))

end Trivia

/-! ## Tokens -/

namespace Token

/-- The token with more trivia in front. -/
def indent (pieces : Trivia) (token : Token) : Token := token.withLeading (pieces ++ token.leading)

@[simp] theorem text_indent (pieces : Trivia) (token : Token) :
    (token.indent pieces).text = pieces.text ++ token.text := by
  simp [indent, text, withLeading]

theorem kind_indent (pieces : Trivia) (token : Token) :
    Kinded.kind (token.indent pieces) = Kinded.kind token := rfl

theorem withoutLeading_indent (pieces : Trivia) (token : Token) :
    (token.indent pieces).withoutLeading = token.withoutLeading := rfl

variable {token : Token} {after : List Char}

theorem Reads.indent {pieces : Trivia} (reads : token.Reads after) (leads : pieces.Leads [])
    (terminated : Terminated pieces.text) : (token.indent pieces).Reads after :=
  ⟨reads.some, leads.append terminated reads.leads, reads.ends, reads.trails⟩

/-- A mark that is the last token of a line is read in front of every text. -/
theorem Reads.of_terminated (reads : token.Reads [])
    (isMark : token.kind ∈ punctuation.map Prod.snd) (terminated : Terminated token.text)
    (after : List Char) : token.Reads after := by
  obtain ⟨⟨mark, kind⟩, inside, (rfl : kind = token.kind)⟩ := List.mem_map.mp isMark
  have noFeed : ∀ entry ∈ punctuation, entry.1 ≠ '\n' := by decide
  have lexemeEq := reads.lexeme_of_punctuation inside
  rw [text] at terminated
  have nonempty : token.trailing.text ≠ [] := by
    intro empty
    rw [empty, lexemeEq, List.append_nil] at terminated
    exact noFeed _ inside (terminated _ List.getLast?_concat)
  have trailingTerminated : Terminated token.trailing.text := terminated.of_append
  have alike : Alike (token.trailing.text ++ []) (token.trailing.text ++ after) :=
    alike_of_feed (trailingTerminated.getLast?_eq nonempty) _ _
  have some : token.trailing ≠ [] := by
    intro empty
    rw [empty] at nonempty
    exact nonempty rfl
  exact ⟨reads.some, reads.leads.of_alike (alike.append_left _), reads.ends_of_alike alike,
    reads.trails.of_terminated trailingTerminated some after⟩

end Token

/-! ## Streams -/

namespace TokenStream

/-- The stream with more trivia in front of its first token, which may be the end of the file. -/
def indent (pieces : Trivia) (stream : TokenStream) : TokenStream :=
  match stream.tokens with
  | [] => { stream with endOfFile := stream.endOfFile.indent pieces }
  | first :: rest => { stream with tokens := first.indent pieces :: rest }

theorem all_indent (pieces : Trivia) (stream : TokenStream) :
    (stream.indent pieces).all = stream.all.modifyHead (Token.indent pieces) := by
  obtain ⟨tokens, endOfFile⟩ := stream
  cases tokens <;> rfl

theorem scan_indent {pieces : Trivia} (leads : pieces.Leads []) (terminated : Terminated pieces.text)
    (other : List Char) : scan (pieces.text ++ other) = (scan other).indent pieces := by
  rcases reads_or_leads other with ⟨token, after, reads, rfl⟩ | ⟨more, leadsMore, rfl⟩
  · rw [scan_of_reads reads, ← List.append_assoc, ← Token.text_indent,
      scan_of_reads (reads.indent leads terminated)]
    rfl
  · rw [scan_of_leads leadsMore, ← Trivia.text_append,
      scan_of_leads (leads.append terminated leadsMore)]
    rfl

/-- A terminated text that ends with a mark and trivia is read in front of every text. -/
theorem scan_append {text : List Char} (terminated : Terminated text)
    (closes : ∀ last ∈ (scan text).tokens.getLast?, last.kind ∈ punctuation.map Prod.snd)
    (other : List Char) :
    scan (text ++ other) =
      let behind := (scan other).indent (scan text).endOfFile.leading
      ⟨(scan text).tokens ++ behind.tokens, behind.endOfFile⟩ := by
  obtain ⟨pieces, leads, endEq, tiles, split⟩ := tiles_scan text
  generalize (scan text).tokens = tokens at closes tiles split ⊢
  subst split
  have tilesOther : Tiles tokens (pieces.text ++ other) := by
    by_cases ending : pieces.text = []
    · rw [ending] at tiles terminated ⊢
      rw [List.append_nil] at terminated
      rcases List.eq_nil_or_concat tokens with rfl | ⟨front, last, rfl⟩
      · trivial
      · rw [List.concat_eq_append] at closes tiles terminated ⊢
        rw [List.flatMap_append] at terminated
        obtain ⟨tilesFront, reads, _⟩ := tiles_append.mp tiles
        have lastTerminated : Terminated ([last].flatMap Token.text) := terminated.of_append
        have nonempty : [last].flatMap Token.text ≠ [] := by simp [Token.text, reads.some]
        refine tiles_append.mpr ⟨tilesFront.of_alike ?_, ?_, trivial⟩
        · exact alike_of_feed (lastTerminated.getLast?_eq nonempty) [] other
        · rw [List.flatMap_singleton] at lastTerminated
          exact reads.of_terminated (closes last List.getLast?_concat) lastTerminated other
    · have feed := terminated.of_append.getLast?_eq ending
      have alike := alike_of_feed feed [] other
      rw [List.append_nil] at alike
      exact tiles.of_alike alike
  rw [List.append_assoc, scan_of_tiles tilesOther, scan_indent leads terminated.of_append, endEq]

end TokenStream

end ServiceAnnotator
