import ServiceAnnotator.Proofs.Scan.Lookahead
import ServiceAnnotator.Proofs.Syntax.Layout
import ServiceAnnotator.Syntax.Scan.Stream

/-!
# Reading one token

What the scanner reads at the front of a text is described without the scanner: the pieces of trivia
have the form of their kinds and end where no more characters can join them, and the lexeme between
them has the length that its first character asks for. Scanning a text gives the only tokens that
can be read off it one by one, and it loses nothing.
-/

namespace ServiceAnnotator

open Scan (startsWith countWhile isLineBreak isInlineBlank isEscapable lexemeTail)

/-! ## Pieces of trivia -/

namespace Piece

/-- A piece has a text of the form that its kind asks for. -/
def Valid (piece : Piece) : Prop :=
  match piece.kind with
  | .whitespace => piece.text ≠ [] ∧ ∀ c ∈ piece.text, isInlineBlank c = true
  | .newline => piece.text = ['\n'] ∨ piece.text = ['\r', '\n'] ∨ piece.text = ['\r']
  | .lineComment =>
    ∃ cs, piece.text = '/' :: '/' :: cs ∧ ∀ c ∈ cs, (!isLineBreak c) = true

/-- A piece ends in front of a text that cannot join it. -/
def Ends (piece : Piece) (after : List Char) : Prop :=
  match piece.kind with
  | .whitespace => startsWith isInlineBlank after = false
  | .newline => piece.text = ['\r'] → startsWith (· == '\n') after = false
  | .lineComment => startsWith (!isLineBreak ·) after = false

end Piece

namespace Scan

theorem startsWith_dropWhile (p : Char → Bool) (cs : List Char) :
    startsWith p (cs.dropWhile p) = false := by
  induction cs with
  | nil => rfl
  | cons c cs ih =>
    rw [List.dropWhile_cons]
    split
    · exact ih
    · rename_i outside
      simpa [startsWith] using outside

/-- A run of characters that satisfy a condition ends in front of a text that does not. -/
theorem takeWhile_append {p : Char → Bool} {run after : List Char}
    (inside : ∀ c ∈ run, p c = true) (stops : startsWith p after = false) :
    (run ++ after).takeWhile p = run ∧ (run ++ after).dropWhile p = after := by
  rw [List.takeWhile_append_of_pos inside, List.dropWhile_append_of_pos inside]
  cases after with
  | nil => simp
  | cons c after =>
    have outside : p c = false := stops
    simp [outside]

theorem piece?_cons_of_ne {c : Char} (cs : List Char) (noSlash : c ≠ '/') (noFeed : c ≠ '\n')
    (noReturn : c ≠ '\r') :
    piece? (c :: cs) =
      if isInlineBlank c then
        some (⟨.whitespace, c :: cs.takeWhile isInlineBlank⟩, cs.dropWhile isInlineBlank)
      else none := by
  unfold piece?
  split
  all_goals simp_all

/-- A piece of trivia that ends in front of a text is the one that is read there. -/
theorem piece?_text_append {piece : Piece} {after : List Char} (valid : piece.Valid)
    (ends : piece.Ends after) : piece? (piece.text ++ after) = some (piece, after) := by
  obtain ⟨kind, text⟩ := piece
  cases kind with
  | whitespace =>
    obtain ⟨some, blank⟩ := valid
    cases text with
    | nil => simp at some
    | cons c run =>
      have first : isInlineBlank c = true := blank c (by simp)
      have noSlash : c ≠ '/' := by rintro rfl; exact absurd first (by decide)
      have noFeed : c ≠ '\n' := by rintro rfl; exact absurd first (by decide)
      have noReturn : c ≠ '\r' := by rintro rfl; exact absurd first (by decide)
      have behind : ∀ d ∈ run, isInlineBlank d = true :=
        fun d inside => blank d (by simp [inside])
      obtain ⟨taken, dropped⟩ := takeWhile_append behind ends
      simp [piece?_cons_of_ne _ noSlash noFeed noReturn, first, taken, dropped]
  | newline =>
    rcases valid with rfl | rfl | rfl
    · simp [piece?]
    · simp [piece?]
    · have noFeed : startsWith (· == '\n') after = false := ends rfl
      cases after with
      | nil => simp [piece?]
      | cons c after =>
        have different : c ≠ '\n' := by simpa [startsWith] using noFeed
        simp [piece?, different]
  | lineComment =>
    obtain ⟨run, rfl, inside⟩ := valid
    obtain ⟨taken, dropped⟩ := takeWhile_append inside ends
    simp [piece?, taken, dropped]

/-- The scanner finds a piece of trivia exactly where one stands. -/
theorem piece?_eq_some_iff (cs : List Char) (piece : Piece) (after : List Char) :
    piece? cs = some (piece, after) ↔ cs = piece.text ++ after ∧ piece.Valid ∧ piece.Ends after := by
  constructor
  · intro found
    unfold piece? at found
    split at found
    · simp at found
    · obtain ⟨rfl, rfl⟩ := found
      refine ⟨by simp, ⟨_, rfl, fun c inside => ?_⟩, startsWith_dropWhile _ _⟩
      exact List.all_eq_true.mp List.all_takeWhile c inside
    · obtain ⟨rfl, rfl⟩ := found
      exact ⟨rfl, .inl rfl, fun same => by simp at same⟩
    · obtain ⟨rfl, rfl⟩ := found
      exact ⟨rfl, .inr (.inl rfl), fun same => by simp at same⟩
    · rename_i notFeed
      obtain ⟨rfl, rfl⟩ := found
      refine ⟨rfl, .inr (.inr rfl), fun _ => ?_⟩
      cases after with
      | nil => rfl
      | cons c after =>
        have different : c ≠ '\n' := fun same => notFeed after (by rw [same])
        simpa [startsWith] using different
    · split at found
      · rename_i blank
        obtain ⟨rfl, rfl⟩ := found
        refine ⟨by simp, ⟨by simp, fun c inside => ?_⟩, startsWith_dropWhile _ _⟩
        rcases List.mem_cons.mp inside with rfl | later
        · exact blank
        · exact List.all_eq_true.mp List.all_takeWhile c later
      · simp at found
  · rintro ⟨rfl, valid, ends⟩
    exact piece?_text_append valid ends

/-- A text in front of which no trivia stands. -/
theorem piece?_cons_eq_none_iff (c : Char) (cs : List Char) :
    piece? (c :: cs) = none ↔
      c ≠ '\n' ∧ c ≠ '\r' ∧ isInlineBlank c = false ∧
        (c = '/' → startsWith (· == '/') cs = false) := by
  by_cases slash : c = '/'
  · subst slash
    cases cs with
    | nil => decide
    | cons d cs =>
      by_cases second : d = '/'
      · simp [piece?, second, startsWith]
      · have noBlank : isInlineBlank '/' = false := by decide
        simp [piece?, second, startsWith, noBlank]
  · by_cases feed : c = '\n'
    · simp [piece?, feed]
    · by_cases carriage : c = '\r'
      · subst carriage
        cases cs with
        | nil => simp [piece?]
        | cons d cs =>
          by_cases second : d = '\n' <;> simp [piece?, second]
      · cases blank : isInlineBlank c <;>
          simp [piece?_cons_of_ne _ slash feed carriage, blank, slash, feed, carriage]

@[simp] theorem piece?_nil : piece? [] = none := rfl

end Scan

/-! ## Runs of trivia -/

namespace Trivia

/-- Trivia in front of a lexeme: it takes all that stands there. -/
def Leads : Trivia → List Char → Prop
  | [], after => Scan.piece? after = none
  | piece :: pieces, after =>
    piece.Valid ∧ piece.Ends (text pieces ++ after) ∧ Leads pieces after

/-- Trivia behind a lexeme: it ends with the first line break. -/
def Trails : Trivia → List Char → Prop
  | [], after => Scan.piece? after = none
  | piece :: pieces, after =>
    piece.Valid ∧ piece.Ends (text pieces ++ after) ∧
      if piece.kind = .newline then pieces = [] else Trails pieces after

/-- Whether trivia ends with a line break. -/
def EndsLine : Trivia → Prop
  | [] => False
  | [piece] => piece.kind = .newline
  | _ :: pieces => EndsLine pieces

end Trivia

namespace Scan

theorem leading_of_piece? {cs rest : List Char} {piece : Piece}
    (found : piece? cs = some (piece, rest)) :
    leading cs = (piece :: (leading rest).1, (leading rest).2) := by
  rw [leading]
  split <;> simp_all

theorem leading_of_piece?_eq_none {cs : List Char} (nothing : piece? cs = none) :
    leading cs = ([], cs) := by
  rw [leading]
  split <;> simp_all

theorem trailing_of_piece? {cs rest : List Char} {piece : Piece}
    (found : piece? cs = some (piece, rest)) :
    trailing cs =
      if piece.kind = .newline then ([piece], rest)
      else (piece :: (trailing rest).1, (trailing rest).2) := by
  rw [trailing]
  split <;> simp_all

theorem trailing_of_piece?_eq_none {cs : List Char} (nothing : piece? cs = none) :
    trailing cs = ([], cs) := by
  rw [trailing]
  split <;> simp_all

/-- The scanner takes all trivia in front of a lexeme. -/
theorem leading_eq_of_leads {pieces : Trivia} {after : List Char} (leads : pieces.Leads after) :
    leading (pieces.text ++ after) = (pieces, after) := by
  induction pieces with
  | nil => exact leading_of_piece?_eq_none leads
  | cons piece pieces ih =>
    obtain ⟨valid, ends, behind⟩ := leads
    have here : piece? (piece.text ++ (Trivia.text pieces ++ after)) =
        some (piece, Trivia.text pieces ++ after) :=
      (piece?_eq_some_iff ..).mpr ⟨rfl, valid, ends⟩
    rw [Trivia.text_cons, List.append_assoc, leading_of_piece? here, ih behind]

theorem leads_leading (cs : List Char) :
    cs = (leading cs).1.text ++ (leading cs).2 ∧ (leading cs).1.Leads (leading cs).2 := by
  fun_induction leading cs with
  | case1 cs found => exact ⟨rfl, found⟩
  | case2 cs piece rest found _ pieces after next ih =>
    rw [next] at ih
    obtain ⟨split, valid, ends⟩ := (piece?_eq_some_iff ..).mp found
    refine ⟨?_, valid, ih.1 ▸ ends, ih.2⟩
    rw [split, Trivia.text_cons, List.append_assoc, ← ih.1]

/-- The scanner takes the trivia behind a lexeme up to the end of its line. -/
theorem trailing_eq_of_trails {pieces : Trivia} {after : List Char} (trails : pieces.Trails after) :
    trailing (pieces.text ++ after) = (pieces, after) := by
  induction pieces with
  | nil => exact trailing_of_piece?_eq_none trails
  | cons piece pieces ih =>
    obtain ⟨valid, ends, behind⟩ := trails
    have here : piece? (piece.text ++ (Trivia.text pieces ++ after)) =
        some (piece, Trivia.text pieces ++ after) :=
      (piece?_eq_some_iff ..).mpr ⟨rfl, valid, ends⟩
    rw [Trivia.text_cons, List.append_assoc, trailing_of_piece? here]
    split at behind
    · rename_i newline
      rw [if_pos newline, behind]
      rfl
    · rename_i inLine
      rw [if_neg inLine, ih behind]

theorem trails_trailing (cs : List Char) :
    cs = (trailing cs).1.text ++ (trailing cs).2 ∧ (trailing cs).1.Trails (trailing cs).2 := by
  fun_induction trailing cs with
  | case1 cs found => exact ⟨rfl, found⟩
  | case2 cs piece rest found _ newline =>
    obtain ⟨split, valid, ends⟩ := (piece?_eq_some_iff ..).mp found
    refine ⟨by simpa using split, valid, ends, ?_⟩
    rw [if_pos newline]
  | case3 cs piece rest found _ inLine pieces after next ih =>
    rw [next] at ih
    obtain ⟨split, valid, ends⟩ := (piece?_eq_some_iff ..).mp found
    refine ⟨?_, valid, ih.1 ▸ ends, ?_⟩
    · rw [split, Trivia.text_cons, List.append_assoc, ← ih.1]
    · rw [if_neg inLine]
      exact ih.2

end Scan

/-! ## Lengths of lexemes -/

namespace Scan

theorem length_identifierTail_le (cs : List Char) : identifierTail cs ≤ cs.length := by
  fun_induction identifierTail cs with
  | case1 => simp
  | case2 => simp
  | case3 => simp
  | case4 c d cs _ ih => simp only [List.length_cons]; omega
  | case5 c d cs _ _ ih => simp only [List.length_cons] at ih ⊢; omega
  | case6 => simp

theorem length_stringTail_le (cs : List Char) : (stringTail cs).2 ≤ cs.length := by
  fun_induction stringTail cs with
  | case1 => simp
  | case2 => simp
  | case3 => simp
  | case4 => simp
  | case5 c cs _ kind length next ih => simp_all; omega
  | case6 => simp
  | case7 c cs _ _ _ kind length next ih => simp_all; omega

theorem length_templateTail_le (cs : List Char) : (templateTail cs).2 ≤ cs.length := by
  have bound := length_countWhile_le (· != '\x60') cs
  simp only [templateTail]
  split
  · simp only; omega
  · exact bound

theorem length_fractionLength_le (cs : List Char) : fractionLength cs ≤ cs.length := by
  cases cs with
  | nil => simp [fractionLength]
  | cons c cs =>
    have bound := length_countWhile_le Char.isDigit cs
    rw [fractionLength_cons, List.length_cons]
    split <;> omega

theorem length_countOne_le (p : Char → Bool) (cs : List Char) : countOne p cs ≤ cs.length := by
  cases cs with
  | nil => simp [countOne, startsWith]
  | cons c cs => rw [countOne, List.length_cons]; split <;> omega

theorem length_exponentLength_le (cs : List Char) : exponentLength cs ≤ cs.length := by
  cases cs with
  | nil => simp [exponentLength]
  | cons c cs =>
    have sign := length_countOne_le (fun c => c == '+' || c == '-') cs
    have digits := length_countWhile_le Char.isDigit
      (cs.drop (countOne (fun c => c == '+' || c == '-') cs))
    rw [List.length_drop] at digits
    rw [exponentLength_cons, List.length_cons]
    split <;> omega

theorem length_then_le {cs : List Char} {count : Nat} {next : List Char → Nat}
    (first : count ≤ cs.length) (second : ∀ ds, next ds ≤ ds.length) :
    count + next (cs.drop count) ≤ cs.length := by
  have bound := second (cs.drop count)
  rw [List.length_drop] at bound
  omega

theorem length_numberTail_le (first : Char) (cs : List Char) :
    numberTail first cs ≤ cs.length := by
  simp only [numberTail]
  split
  · rename_i hex
    have bound := length_countWhile_le isHexDigit (cs.drop 1)
    have some : cs ≠ [] := by
      rintro rfl
      simp [startsWith] at hex
    have positive := List.length_pos_iff.mpr some
    rw [List.length_drop] at bound
    omega
  · have whole := length_countWhile_le Char.isDigit cs
    have fraction := length_then_le whole length_fractionLength_le
    have exponent := length_then_le fraction length_exponentLength_le
    exact length_then_le exponent (length_countOne_le _)

/-- A lexeme lies in the text. -/
theorem length_lexemeTail_le (c : Char) (cs : List Char) : (lexemeTail c cs).2 ≤ cs.length := by
  cases lexemeClass c with
  | mark isMark =>
    rw [lexemeTail_of_mem_punctuation isMark]
    exact Nat.zero_le _
  | point =>
    rw [lexemeTail_point]
    split
    · rename_i points
      have two : (cs.take 2).length = 2 := by rw [points]; rfl
      rw [List.length_take] at two
      simp only
      omega
    · exact Nat.zero_le _
  | string => exact length_stringTail_le cs
  | template => exact length_templateTail_le cs
  | line => exact length_countWhile_le _ cs
  | quoted =>
    rw [lexemeTail_quoted]
    split
    · exact length_identifierTail_le cs
    · exact Nat.zero_le _
  | escaped =>
    rw [lexemeTail_escaped]
    split
    · rename_i escape
      cases cs with
      | nil => simp [startsWith] at escape
      | cons d cs =>
        have bound := length_identifierTail_le cs
        simp only [List.drop_succ_cons, List.drop_zero, List.length_cons]
        omega
    · exact Nat.zero_le _
  | word plain =>
    cases wordClass plain with
    | equals =>
      rw [lexemeTail_equals]
      split
      · exact length_countWhile_le _ cs
      · exact Nat.zero_le _
    | number taken =>
      rw [taken]
      exact length_numberTail_le c cs
    | name start taken =>
      rw [taken]
      exact length_identifierTail_le cs
    | operator taken =>
      rw [taken]
      exact length_countWhile_le _ cs
    | unknown taken =>
      rw [taken]
      exact Nat.zero_le _

end Scan

/-! ## Tokens -/

/-- A token stands at the front of a text, with `after` behind it: each of its parts is what the
scanner takes there. -/
structure Token.Reads (token : Token) (after : List Char) : Prop where
  some : token.lexeme ≠ []
  leads : token.leading.Leads (token.lexeme ++ (token.trailing.text ++ after))
  ends : ∀ first rest, token.lexeme = first :: rest →
    lexemeTail first (rest ++ (token.trailing.text ++ after)) = (token.kind, rest.length)
  trails : token.trailing.Trails after

/-- The word of a token that stands at the front of a text is a lexeme there. -/
theorem Token.Reads.exists_lexeme {token : Token} {after : List Char} (reads : token.Reads after) :
    ∃ first rest, token.lexeme = first :: rest ∧
      lexemeTail first (rest ++ (token.trailing.text ++ after)) = (token.kind, rest.length) := by
  obtain ⟨first, rest, lexemeEq⟩ := List.exists_cons_of_ne_nil reads.some
  exact ⟨first, rest, lexemeEq, reads.ends first rest lexemeEq⟩

/-- The scanner takes the parts of a token that stands at the front of a text one after the
other. -/
theorem Token.Reads.exists_parts {token : Token} {after : List Char} (reads : token.Reads after) :
    ∃ first rest, token.lexeme = first :: rest ∧
      Scan.leading (token.text ++ after) =
        (token.leading, first :: (rest ++ (token.trailing.text ++ after))) ∧
      lexemeTail first (rest ++ (token.trailing.text ++ after)) = (token.kind, rest.length) ∧
      Scan.trailing (token.trailing.text ++ after) = (token.trailing, after) := by
  obtain ⟨first, rest, lexemeEq, counted⟩ := reads.exists_lexeme
  refine ⟨first, rest, lexemeEq, ?_, counted, Scan.trailing_eq_of_trails reads.trails⟩
  rw [token.text_append, Scan.leading_eq_of_leads reads.leads, lexemeEq, List.cons_append]

namespace TokenStream

theorem scan_of_leading {cs rest : List Char} {pieces : Trivia} {first : Char}
    (found : Scan.leading cs = (pieces, first :: rest)) :
    scan cs =
      let behind := Scan.trailing (rest.drop (lexemeTail first rest).2)
      ⟨⟨pieces, (lexemeTail first rest).1, first :: rest.take (lexemeTail first rest).2,
        behind.1⟩ :: (scan behind.2).tokens, (scan behind.2).endOfFile⟩ := by
  rw [scan]
  split
  · rename_i other
    simp [found] at other
  · rename_i other
    rw [found, Prod.mk.injEq, List.cons.injEq] at other
    obtain ⟨rfl, rfl, rfl⟩ := other
    rfl

/-- The scanner reads the token that stands at the front of a text, and goes on behind it. -/
theorem scan_of_reads {token : Token} {after : List Char} (reads : token.Reads after) :
    scan (token.text ++ after) =
      ⟨token :: (scan after).tokens, (scan after).endOfFile⟩ := by
  obtain ⟨first, rest, lexemeEq, front, counted, behind⟩ := reads.exists_parts
  rw [scan_of_leading front]
  simp only [counted, List.take_left, List.drop_left, behind, ← lexemeEq]

/-- A text without a lexeme is the trivia in front of the end of the file. -/
theorem scan_of_leads {pieces : Trivia} (leads : pieces.Leads []) :
    scan pieces.text = ⟨[], ⟨pieces, .endOfFile, [], []⟩⟩ := by
  have front := Scan.leading_eq_of_leads leads
  rw [List.append_nil] at front
  rw [scan]
  split
  · rename_i found
    rw [front, Prod.mk.injEq] at found
    rw [found.1]
  · rename_i found
    simp [front] at found

/-- Either a token stands at the front of a text, or nothing but trivia is left. -/
theorem reads_or_leads (cs : List Char) :
    (∃ (token : Token) (after : List Char), token.Reads after ∧ cs = token.text ++ after) ∨
      ∃ pieces : Trivia, pieces.Leads [] ∧ cs = pieces.text := by
  obtain ⟨split, leads⟩ := Scan.leads_leading cs
  cases found : (Scan.leading cs).2 with
  | nil =>
    rw [found] at split leads
    exact .inr ⟨_, leads, by simpa using split⟩
  | cons first rest =>
    rw [found] at split leads
    have bound := Scan.length_lexemeTail_le first rest
    obtain ⟨behind, trails⟩ := Scan.trails_trailing (rest.drop (lexemeTail first rest).2)
    have cut := (List.take_append_drop (lexemeTail first rest).2 rest).symm
    rw [behind] at cut
    refine .inl ⟨⟨(Scan.leading cs).1, (lexemeTail first rest).1,
      first :: rest.take (lexemeTail first rest).2,
      (Scan.trailing (rest.drop (lexemeTail first rest).2)).1⟩,
      (Scan.trailing (rest.drop (lexemeTail first rest).2)).2, ⟨by simp, ?_, ?_, trails⟩, ?_⟩
    · rw [List.cons_append, ← cut]
      exact leads
    · intro c tail same
      obtain ⟨rfl, rfl⟩ := List.cons.inj same
      rw [← cut, List.length_take, Nat.min_eq_left bound]
    · refine split.trans ?_
      simp only [Token.text, List.append_assoc, List.cons_append, ← cut]

/-! ## Streams -/

/-- Tokens follow each other, with `after` behind the last one, as the scanner would read them. -/
def Tiles : List Token → List Char → Prop
  | [], _ => True
  | token :: tokens, after => token.Reads (tokens.flatMap Token.text ++ after) ∧ Tiles tokens after

theorem tiles_append {left right : List Token} {after : List Char} :
    Tiles (left ++ right) after ↔
      Tiles left (right.flatMap Token.text ++ after) ∧ Tiles right after := by
  induction left with
  | nil => simp [Tiles]
  | cons token tokens ih => simp [Tiles, ih, and_assoc]

/-- The scanner reads tokens that follow each other as they are. -/
theorem scan_of_tiles {tokens : List Token} {after : List Char} (tiles : Tiles tokens after) :
    scan (tokens.flatMap Token.text ++ after) =
      ⟨tokens ++ (scan after).tokens, (scan after).endOfFile⟩ := by
  induction tokens with
  | nil => rfl
  | cons token tokens ih =>
    rw [List.flatMap_cons, List.append_assoc, scan_of_reads tiles.1, ih tiles.2]
    rfl

/-- Every text is its tokens and the trivia behind them. -/
theorem tiles_scan (cs : List Char) :
    ∃ pieces : Trivia, pieces.Leads [] ∧ (scan cs).endOfFile = ⟨pieces, .endOfFile, [], []⟩ ∧
      Tiles (scan cs).tokens pieces.text ∧
      cs = (scan cs).tokens.flatMap Token.text ++ pieces.text := by
  induction lengthEq : cs.length using Nat.strongRecOn generalizing cs with
  | ind length ih =>
    rcases reads_or_leads cs with ⟨token, after, reads, rfl⟩ | ⟨pieces, leads, rfl⟩
    · have shorter : after.length < length := by
        obtain ⟨first, rest, lexemeEq⟩ := List.exists_cons_of_ne_nil reads.some
        rw [← lengthEq, Token.text, lexemeEq]
        simp only [List.length_append, List.length_cons]
        omega
      obtain ⟨pieces, leads, endEq, tiles, afterEq⟩ := ih after.length shorter after rfl
      refine ⟨pieces, leads, ?_, ?_, ?_⟩
      · rw [scan_of_reads reads, endEq]
      · rw [scan_of_reads reads]
        exact ⟨afterEq ▸ reads, tiles⟩
      · rw [scan_of_reads reads, List.flatMap_cons, List.append_assoc, ← afterEq]
    · refine ⟨pieces, leads, ?_, ?_, ?_⟩
      all_goals rw [scan_of_leads leads]
      · trivial
      · simp

/-- Scanning loses nothing of a text. -/
theorem text_scan (cs : List Char) : (scan cs).text = cs := by
  obtain ⟨pieces, _, endEq, _, split⟩ := tiles_scan cs
  refine Eq.trans ?_ split.symm
  rw [text, all, endEq]
  simp [Token.text]

end TokenStream

end ServiceAnnotator
