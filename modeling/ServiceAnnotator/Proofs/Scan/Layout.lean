import ServiceAnnotator.Proofs.Scan.Attached
import ServiceAnnotator.Syntax.StoredTrivia

/-!
# Layout is cut as the scanner cuts it

Blanks and line breaks are cut into pieces in two ways: by the scanner, which looks ahead for
the end of each piece, and in one pass, which looks back at the piece in front of each character.
Both give the pieces of the layout of a text, so that a token that no text was read into carries the
trivia that reading its text would give.
-/

namespace ServiceAnnotator

open Scan (startsWith isLineBreak isInlineBlank)

/-- Blanks and line breaks, the characters of a layout. -/
def Scan.isLayout (c : Char) : Bool := isInlineBlank c || isLineBreak c

open Scan (isLayout)

theorem Scan.isLayout_of_mem {c : Char} (inside : c ∈ [' ', '\t', '\x0c', '\n', '\r']) :
    isLayout c = true := by
  simp only [List.mem_cons, List.not_mem_nil, or_false] at inside
  rcases inside with rfl | rfl | rfl | rfl | rfl <;> rfl

/-- Behind no piece but a comment blanks and line breaks are left. -/
def Piece.IsLayout (piece : Piece) : Prop := piece.Valid ∧ piece.kind ≠ .lineComment

/-! ## The layout of a text -/

namespace Trivia

/-- A blank joins the blanks behind it, and otherwise it is a piece of its own. -/
theorem layout_cons_of_inline {c : Char} (blank : isInlineBlank c = true) (cs : List Char) :
    (∀ blanks pieces, layout cs = ⟨.whitespace, blanks⟩ :: pieces →
      layout (c :: cs) = ⟨.whitespace, c :: blanks⟩ :: pieces) ∧
    ((∀ blanks pieces, layout cs ≠ ⟨.whitespace, blanks⟩ :: pieces) →
      layout (c :: cs) = ⟨.whitespace, [c]⟩ :: layout cs) := by
  have noFeed : c ≠ '\n' := by rintro rfl; cases blank
  have noReturn : c ≠ '\r' := by rintro rfl; cases blank
  rw [layout]
  · constructor
    · intro blanks pieces behind
      rw [behind]
    · intro behind
      split
      · rename_i found
        exact absurd found (behind _ _)
      · rfl
  · exact fun _ same _ => noReturn same
  · exact noReturn
  · exact noFeed

/-- A line break that nothing joins is the first piece of a layout. -/
theorem layout_newline_append {text after : List Char} (valid : Piece.Valid ⟨.newline, text⟩)
    (ends : Piece.Ends ⟨.newline, text⟩ after) :
    layout (text ++ after) = ⟨.newline, text⟩ :: layout after := by
  rcases valid with rfl | rfl | rfl
  · rw [List.singleton_append, layout]
  · rw [List.cons_append, List.singleton_append, layout]
  · have noFeed : startsWith (· == '\n') after = false := ends rfl
    rw [List.singleton_append, layout]
    rintro cs rfl
    cases noFeed

/-- In front of a line break or of nothing a layout does not go on with blanks. -/
theorem layout_ne_blanks {after : List Char} (space : ∀ c ∈ after, isLayout c = true)
    (stops : startsWith isInlineBlank after = false) (blanks : List Char) (pieces : Trivia) :
    layout after ≠ ⟨.whitespace, blanks⟩ :: pieces := by
  cases after with
  | nil => exact List.cons_ne_nil _ _ ∘ Eq.symm
  | cons c after =>
    have noBlank : isInlineBlank c = false := stops
    have lineBreak : isLineBreak c = true := by
      have first := space c (.head _)
      rwa [isLayout, noBlank, Bool.false_or] at first
    rw [isLineBreak, Bool.or_eq_true, beq_iff_eq, beq_iff_eq] at lineBreak
    rcases lineBreak with rfl | rfl
    · simp [layout]
    · cases after with
      | nil => simp [layout]
      | cons d after => by_cases feed : d = '\n' <;> simp [layout, feed]

/-- Blanks that no blank follows are the first piece of a layout. -/
theorem layout_blanks_append {blanks after : List Char} (some : blanks ≠ [])
    (inline : ∀ c ∈ blanks, isInlineBlank c = true) (space : ∀ c ∈ after, isLayout c = true)
    (stops : startsWith isInlineBlank after = false) :
    layout (blanks ++ after) = ⟨.whitespace, blanks⟩ :: layout after := by
  induction blanks with
  | nil => exact absurd rfl some
  | cons c blanks ih =>
    have first := layout_cons_of_inline (inline c (.head _)) (blanks ++ after)
    cases blanks with
    | nil => exact first.2 (layout_ne_blanks space stops)
    | cons d blanks =>
      exact first.1 _ _ (ih (List.cons_ne_nil d blanks) fun c inside => inline c (.tail _ inside))

/-- A piece that nothing joins is the first piece of a layout. -/
theorem layout_text_append {piece : Piece} (isLayout : piece.IsLayout) {after : List Char}
    (ends : piece.Ends after) (space : ∀ c ∈ after, Scan.isLayout c = true) :
    layout (piece.text ++ after) = piece :: layout after := by
  obtain ⟨kind, text⟩ := piece
  obtain ⟨valid, noComment⟩ := isLayout
  cases kind with
  | whitespace => exact layout_blanks_append valid.1 valid.2 space ends
  | newline => exact layout_newline_append valid ends
  | lineComment => exact absurd rfl noComment

theorem layout_eq_nil_iff (cs : List Char) : layout cs = [] ↔ cs = [] := by
  constructor
  · intro nothing
    rw [← text_layout cs, nothing, text_nil]
  · rintro rfl
    rfl

end Trivia

/-! ## The scanner -/

/-- Before a text of blanks and line breaks the scanner takes its layout. -/
theorem Scan.leading_eq_layout {cs : List Char} (space : ∀ c ∈ cs, isLayout c = true) :
    leading cs = (Trivia.layout cs, []) := by
  fun_induction leading cs with
  | case1 cs nothing =>
    cases cs with
    | nil => rfl
    | cons c cs =>
      obtain ⟨noFeed, noReturn, noBlank, -⟩ := (piece?_cons_eq_none_iff c cs).mp nothing
      have first := space c (.head _)
      simp [isLayout, isLineBreak, noFeed, noReturn, noBlank] at first
  | case2 cs piece rest found _ pieces after next ih =>
    obtain ⟨rfl, valid, ends⟩ := (piece?_eq_some_iff ..).mp found
    have behind : ∀ c ∈ rest, isLayout c = true :=
      fun c inside => space c (List.mem_append_right _ inside)
    have noComment : piece.kind ≠ .lineComment := by
      intro comment
      obtain ⟨kind, text⟩ := piece
      obtain rfl : kind = .lineComment := comment
      obtain ⟨cs, rfl, -⟩ := valid
      have slash := space '/' (.head _)
      cases slash
    have same := ih behind
    rw [next, Prod.mk.injEq] at same
    rw [same.1, same.2, Trivia.layout_text_append ⟨valid, noComment⟩ ends behind]

/-! ## One pass -/

namespace StoredTrivia

open Pass (joins kindOf)

/-- A character joins a piece just where the piece does not end in front of it. -/
theorem Pass.joins_eq_false_iff {piece : Piece} (isLayout : piece.IsLayout) {c : Char}
    (space : Scan.isLayout c = true) (cs : List Char) :
    joins piece.kind (decide (piece.text = ['\r'])) c = false ↔ piece.Ends (c :: cs) := by
  obtain ⟨kind, text⟩ := piece
  obtain ⟨valid, noComment⟩ := isLayout
  cases kind with
  | whitespace =>
    have noReturn : text ≠ ['\r'] := by
      rintro rfl
      have first := valid.2 '\r' (.head _)
      cases first
    rw [Scan.isLayout, Bool.or_eq_true, isLineBreak, Bool.or_eq_true, beq_iff_eq, beq_iff_eq] at space
    rcases space with inline | rfl | rfl
    · have noFeed : c ≠ '\n' := by rintro rfl; cases inline
      have noReturn : c ≠ '\r' := by rintro rfl; cases inline
      simp [joins, Piece.Ends, startsWith, inline, noFeed, noReturn]
    · simp [joins, Piece.Ends, startsWith, noReturn, isInlineBlank]
    · simp [joins, Piece.Ends, startsWith, isInlineBlank]
  | newline =>
    by_cases feed : c = '\n' <;> simp [joins, Piece.Ends, startsWith, feed]
  | lineComment => exact absurd rfl noComment

/-- A piece with a character that joins it is a piece of the same kind. -/
theorem Pass.isLayout_concat {piece : Piece} (isLayout : piece.IsLayout) {c : Char}
    (space : Scan.isLayout c = true)
    (join : joins piece.kind (decide (piece.text = ['\r'])) c = true) :
    Piece.IsLayout ⟨piece.kind, piece.text ++ [c]⟩ := by
  obtain ⟨kind, text⟩ := piece
  have joined : ¬ Piece.Ends ⟨kind, text⟩ [c] := by
    intro ends
    rw [(joins_eq_false_iff isLayout space []).mpr ends] at join
    cases join
  refine ⟨?_, isLayout.2⟩
  cases kind with
  | whitespace =>
    have inline : isInlineBlank c = true := by simpa [Piece.Ends, startsWith] using joined
    refine ⟨List.append_ne_nil_of_right_ne_nil text (List.cons_ne_nil c []), ?_⟩
    intro d inside
    rcases List.mem_append.mp inside with earlier | last
    · exact isLayout.1.2 d earlier
    · rwa [List.mem_singleton.mp last]
  | newline =>
    obtain ⟨rfl, rfl⟩ : text = ['\r'] ∧ c = '\n' := by
      simpa [Piece.Ends, startsWith] using joined
    exact .inr (.inl rfl)
  | lineComment => exact absurd rfl isLayout.2

/-- A character is a piece of its own. -/
theorem Pass.isLayout_singleton {c : Char} (space : Scan.isLayout c = true) :
    Piece.IsLayout ⟨kindOf c, [c]⟩ := by
  by_cases lineBreak : c = '\n' ∨ c = '\r'
  · rw [kindOf, if_pos lineBreak]
    refine ⟨?_, PieceKind.noConfusion⟩
    rcases lineBreak with rfl | rfl
    · exact .inl rfl
    · exact .inr (.inr rfl)
  · have inline : isInlineBlank c = true := by
      simpa [Scan.isLayout, isLineBreak, lineBreak] using space
    rw [kindOf, if_neg lineBreak]
    refine ⟨⟨List.cons_ne_nil c [], ?_⟩, PieceKind.noConfusion⟩
    intro d inside
    rwa [List.mem_singleton.mp inside]

/-- The pass behind a piece: the piece, those in front of it, the last one first, and whether the
piece is a carriage return. -/
def Pass.behind (before : List (PieceKind × Nat)) (piece : Piece) : Pass :=
  ⟨piece.measure :: before, decide (piece.text = ['\r'])⟩

theorem Pass.step_start (c : Char) : start.step c = behind [] ⟨kindOf c, [c]⟩ := by
  simp [step, start, behind, Piece.measure]

theorem Pass.step_behind_of_joins {piece : Piece} (isLayout : piece.IsLayout) {c : Char}
    (join : joins piece.kind (decide (piece.text = ['\r'])) c = true)
    (before : List (PieceKind × Nat)) :
    (behind before piece).step c = behind before ⟨piece.kind, piece.text ++ [c]⟩ := by
  have noReturn : c ≠ '\r' := by
    rintro rfl
    cases join
  have some : piece.text ≠ [] := by
    obtain ⟨kind, text⟩ := piece
    rintro rfl
    cases kind with
    | whitespace => exact isLayout.1.1 rfl
    | newline => simpa [Piece.Valid] using isLayout.1
    | lineComment => exact isLayout.2 rfl
  have noPiece : piece.text ++ [c] ≠ ['\r'] := by
    intro same
    rw [List.append_eq_singleton_iff] at same
    rcases same with ⟨none, -⟩ | ⟨-, none⟩
    · exact some none
    · cases none
  simp [step, behind, Piece.measure, join, noReturn, noPiece]

theorem Pass.step_behind_of_not_joins {piece : Piece} {c : Char}
    (join : joins piece.kind (decide (piece.text = ['\r'])) c = false)
    (before : List (PieceKind × Nat)) :
    (behind before piece).step c = behind (piece.measure :: before) ⟨kindOf c, [c]⟩ := by
  simp [step, behind, Piece.measure, join]

/-- Behind a piece the pass goes on with the layout of the piece and of what follows. -/
theorem Pass.foldl_step_behind {piece : Piece} (isLayout : piece.IsLayout)
    (before : List (PieceKind × Nat)) {cs : List Char}
    (space : ∀ c ∈ cs, Scan.isLayout c = true) :
    (cs.foldl step (behind before piece)).pieces.reverse =
      before.reverse ++ (Trivia.layout (piece.text ++ cs)).map Piece.measure := by
  induction cs generalizing piece before with
  | nil =>
    have ends : piece.Ends [] := by
      obtain ⟨kind, text⟩ := piece
      cases kind
      · rfl
      · exact fun _ => rfl
      · rfl
    rw [Trivia.layout_text_append isLayout ends space]
    simp [behind, Trivia.layout]
  | cons c cs ih =>
    have first := space c (.head _)
    have others : ∀ c ∈ cs, Scan.isLayout c = true := fun c inside => space c (.tail _ inside)
    rw [List.foldl_cons]
    cases join : joins piece.kind (decide (piece.text = ['\r'])) c with
    | true =>
      rw [step_behind_of_joins isLayout join, ih (isLayout_concat isLayout first join) before others,
        List.append_assoc, List.singleton_append]
    | false =>
      have ends := (joins_eq_false_iff isLayout first cs).mp join
      rw [step_behind_of_not_joins join, ih (isLayout_singleton first) (piece.measure :: before) others,
        Trivia.layout_text_append isLayout ends space]
      simp

/-- One pass gives the layout of a text. -/
theorem layout_eq_ofTrivia {cs : List Char} (space : ∀ c ∈ cs, Scan.isLayout c = true) :
    layout cs = ofTrivia (Trivia.layout cs) := by
  cases cs with
  | nil => rfl
  | cons c cs =>
    have others : ∀ c ∈ cs, Scan.isLayout c = true := fun c inside => space c (.tail _ inside)
    rw [layout, List.foldl_cons, Pass.step_start,
      Pass.foldl_step_behind (Pass.isLayout_singleton (space c (.head _))) [] others]
    rfl

/-! ## What is stored -/

theorem length_ofTrivia (trivia : Trivia) : (ofTrivia trivia).length = trivia.byteLength := by
  rw [← Slice.lengthOf_measure, ofTrivia]
  cases trivia.map Piece.measure <;> rfl

theorem isEmpty_ofTrivia (trivia : Trivia) : (ofTrivia trivia).isEmpty = trivia.isEmpty := by
  cases trivia <;> rfl

/-- A text of blanks and line breaks has no token but the end of the file, and the trivia in front
of it is what one pass over the text gives. -/
theorem layout_eq_leading (cs : List Char) (space : ∀ c ∈ cs, c ∈ [' ', '\t', '\x0c', '\n', '\r']) :
    (Tokenizer.ofText cs).current = ⟨0, Trivia.layout cs, .endOfFile, [], []⟩ ∧
    TokenStream.scan cs = ⟨[], Trivia.layout cs, .endOfFile, [], []⟩ ∧
    layout cs = ofTrivia (Tokenizer.ofText cs).current.token.leading ∧
    (layout cs).length = Text.byteLength cs ∧ ((layout cs).isEmpty = true ↔ cs = []) := by
  have isLayout : ∀ c ∈ cs, Scan.isLayout c = true :=
    fun c inside => Scan.isLayout_of_mem (space c inside)
  have leads : (Trivia.layout cs).Leads [] := by
    have taken := (Scan.leads_leading cs).2
    rwa [Scan.leading_eq_layout isLayout] at taken
  have stored := layout_eq_ofTrivia isLayout
  have read := Tokenizer.read_of_leads leads 0
  have scanned := TokenStream.scan_of_leads leads
  rw [Trivia.text_layout] at read scanned
  have current : (Tokenizer.ofText cs).current = ⟨0, Trivia.layout cs, .endOfFile, [], []⟩ :=
    congrArg Tokenizer.current read
  refine ⟨current, scanned, ?_, ?_, ?_⟩
  · rw [stored, current]
  · rw [stored, length_ofTrivia, Trivia.byteLength, Trivia.text_layout]
  · rw [stored, isEmpty_ofTrivia, List.isEmpty_iff, Trivia.layout_eq_nil_iff]

/-- Carriage returns alone, before each other and before a line feed, with blanks around them. -/
theorem layout_eq_leading_mixed :
    let text := " \t\r\r\n\n\x0c\r".toList
    (∀ c ∈ text, c ∈ [' ', '\t', '\x0c', '\n', '\r']) ∧
    layout text = ofTrivia (Tokenizer.ofText text).current.token.leading ∧
    layout text = .run 8 [(.whitespace, 2), (.newline, 1), (.newline, 2), (.newline, 1),
      (.whitespace, 1), (.newline, 1)] := by
  intro text
  have space : ∀ c ∈ text, c ∈ [' ', '\t', '\x0c', '\n', '\r'] := by simp [text]
  obtain ⟨-, -, same, -, -⟩ := layout_eq_leading text space
  exact ⟨space, same, by decide⟩

end StoredTrivia

end ServiceAnnotator
