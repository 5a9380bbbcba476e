import ServiceAnnotator.Proofs.Events.Parse
import ServiceAnnotator.Proofs.Grammar.Order
import ServiceAnnotator.Text.Position

/-!
# Where problems lie

The grammar reports a problem by the number of tokens ahead. As a diagnostic it lies at a token of
the text, and problems that are reported in order lie at tokens that follow each other.
-/

namespace ServiceAnnotator

/-! ## Parts of a text -/

/-- Whether a span goes from one end of a part of a text to the other one. -/
def Span.Cuts (span : Span) (cs : List Char) : Prop :=
  ∃ front part behind, cs = front ++ (part ++ behind) ∧
    span = .ofLength (Text.byteLength front) (Text.byteLength part)

namespace Span.Cuts

variable {span : Span} {cs : List Char}

theorem isSome_slice? (cuts : span.Cuts cs) : (Text.slice? span.start span.stop cs).isSome := by
  obtain ⟨front, part, behind, rfl, rfl⟩ := cuts
  rw [ofLength, Text.slice?_append]
  rfl

/-- Both ends of a part stand between characters. -/
theorem isSome_splitAt? (cuts : span.Cuts cs) :
    (Text.splitAt? span.start cs).isSome ∧ (Text.splitAt? span.stop cs).isSome := by
  obtain ⟨front, part, behind, rfl, rfl⟩ := cuts
  rw [ofLength, ← Text.byteLength_append, Text.splitAt?_byteLength, ← List.append_assoc,
    Text.splitAt?_byteLength]
  exact ⟨rfl, rfl⟩

end Span.Cuts

/-! ## Lines and columns -/

namespace Text

/-- What is documented of the conversion of positions to lines and columns: it fails for positions
past the end and inside a character, and for no other. -/
def ConvertsPositions (convert? : List Char → Nat → Option (Nat × Nat)) : Prop :=
  ∀ cs position, (convert? cs position).isSome ↔ (splitAt? position cs).isSome

theorem convertsPositions_lineColumn? : ConvertsPositions lineColumn? := by
  intro cs position
  rw [lineColumn?]
  cases splitAt? position cs <;> rfl

end Text

/-! ## Tokens one behind the other -/

namespace PlacedToken

theorem start_le_of_mem_sequence {start : Nat} {tokens : List Token} :
    ∀ placed ∈ sequence start tokens, start ≤ placed.start := by
  induction tokens generalizing start with
  | nil => exact fun _ inside => absurd inside List.not_mem_nil
  | cons token tokens ih =>
    intro placed inside
    rcases List.mem_cons.mp inside with rfl | behind
    · exact Nat.le_refl _
    · exact Nat.le_trans (Nat.le_add_right ..) (ih placed behind)

/-- The significant text of a token ends where the next token begins or in front of it. -/
theorem lexemeSpan_stop_le (placed : PlacedToken) :
    placed.lexemeSpan.stop ≤ placed.start + placed.token.byteLength := by
  simp only [lexemeSpan, Token.lexemeSpan, Span.ofLength, Token.byteLength, Token.text,
    Text.byteLength_append, Trivia.byteLength]
  omega

/-- The significant texts of tokens follow each other. -/
theorem pairwise_sequence (start : Nat) (tokens : List Token) :
    (sequence start tokens).Pairwise fun left right =>
      left.lexemeSpan.start ≤ right.lexemeSpan.start := by
  induction tokens generalizing start with
  | nil => exact .nil
  | cons token tokens ih =>
    refine List.pairwise_cons.mpr ⟨fun right inside => ?_, ih _⟩
    calc (⟨start, token⟩ : PlacedToken).lexemeSpan.start
      _ ≤ (⟨start, token⟩ : PlacedToken).lexemeSpan.stop := Nat.le_add_right ..
      _ ≤ start + token.byteLength := lexemeSpan_stop_le _
      _ ≤ right.start := start_le_of_mem_sequence right inside
      _ ≤ right.lexemeSpan.start := Nat.le_add_right ..

/-- The significant text of a token is a part of the text. -/
theorem cuts_lexemeSpan (front : List Char) (tokens : List Token) (behind : List Char) :
    ∀ placed ∈ sequence (Text.byteLength front) tokens,
      placed.lexemeSpan.Cuts (front ++ (tokens.flatMap Token.text ++ behind)) := by
  induction tokens generalizing front with
  | nil => exact fun _ inside => absurd inside List.not_mem_nil
  | cons token tokens ih =>
    intro placed inside
    rw [List.flatMap_cons, List.append_assoc]
    rcases List.mem_cons.mp inside with rfl | later
    · refine ⟨front ++ token.leading.text, token.lexeme,
        token.trailing.text ++ (tokens.flatMap Token.text ++ behind), ?_, ?_⟩
      · simp only [Token.text, List.append_assoc]
      · rw [Text.byteLength_append]
        rfl
    · have further := ih (front ++ token.text)
      rw [Text.byteLength_append, List.append_assoc] at further
      exact further placed later

end PlacedToken

namespace TokenStream

theorem get_of_le {text : List Char} {index : Nat} (within : index ≤ (scan text).tokens.length) :
    (scan text).placed[index]? = some ((scan text).get index) := by
  have bound : index < (scan text).placed.length := by
    rw [placed, PlacedToken.length_sequence, all, List.length_append]
    exact Nat.lt_succ_of_le within
  rw [get, List.getD_eq_getElem?_getD, List.getElem?_eq_getElem bound]
  rfl

theorem start_get_le {text : List Char} {left right : Nat} (ordered : left ≤ right)
    (within : right ≤ (scan text).tokens.length) :
    ((scan text).get left).lexemeSpan.start ≤ ((scan text).get right).lexemeSpan.start := by
  obtain ⟨leftBound, leftEq⟩ :=
    List.getElem?_eq_some_iff.mp (get_of_le (Nat.le_trans ordered within))
  obtain ⟨rightBound, rightEq⟩ := List.getElem?_eq_some_iff.mp (get_of_le within)
  rcases Nat.eq_or_lt_of_le ordered with rfl | before
  · exact Nat.le_refl _
  · have follow := PlacedToken.pairwise_sequence 0 (scan text).all
    rw [← leftEq, ← rightEq]
    exact List.pairwise_iff_getElem.mp follow left right leftBound rightBound before

theorem cuts_lexemeSpan (text : List Char) :
    ∀ placed ∈ (scan text).placed, placed.lexemeSpan.Cuts text := by
  have cuts := PlacedToken.cuts_lexemeSpan [] (scan text).all []
  have covers : (scan text).all.flatMap Token.text = text := text_scan text
  rwa [List.append_nil, List.nil_append, covers] at cuts

end TokenStream

namespace SourceTree

/-! ## Problems -/

/-- The token at which a problem is reported. -/
theorem mem_problems_iff {text : List Char} {diagnostic : Diagnostic} :
    diagnostic ∈ (parse text).problems ↔ ∃ report ∈ (parse text).reports,
      diagnostic = ⟨.error, report.problem.message, ((TokenStream.scan text).get
        ((TokenStream.scan text).tokens.length - report.ahead)).lexemeSpan⟩ := by
  rw [problems, List.mem_map]
  simp only [eq_comm]
  rfl

/-- Each problem is an error at a token of the text, the end of the file included. -/
theorem exists_token_of_mem_problems {text : List Char} {diagnostic : Diagnostic}
    (inside : diagnostic ∈ (parse text).problems) :
    diagnostic.severity = .error ∧
      ∃ placed ∈ (TokenStream.scan text).placed, diagnostic.span = placed.lexemeSpan := by
  obtain ⟨report, -, rfl⟩ := mem_problems_iff.mp inside
  exact ⟨rfl, _, List.mem_of_getElem? (TokenStream.get_of_le (Nat.sub_le ..)), rfl⟩

/-- Problems are reported in the order of the text. -/
theorem pairwise_problems (text : List Char) :
    (parse text).problems.Pairwise fun left right => left.span.start ≤ right.span.start := by
  have ordered : (parse text).reports.Pairwise fun earlier later => later.ahead ≤ earlier.ahead :=
    (Grammar.composed_items (TokenStream.scan text).tokens).inOrder.ordered
  refine List.pairwise_map.mpr (ordered.imp fun {earlier later} fewer => ?_)
  exact TokenStream.start_get_le (Nat.sub_le_sub_left fewer _) (Nat.sub_le ..)

end SourceTree

end ServiceAnnotator
