import ServiceAnnotator.Proofs.Scan.Tokenizer
import ServiceAnnotator.Proofs.Scan.Transfer

/-!
# Trivia belongs to the tokens around it

A tokenizer gives every byte of a text to one token. What follows a token on its line is the trivia
behind it, the line break included, and all other trivia is in front of the next token. One step
keeps the tokenizer within its text, so this holds of any number of steps.
-/

namespace ServiceAnnotator

open Scan (startsWith isLineBreak isInlineBlank)

/-! ## Trivia where it stands -/

/-- Whether a piece has the form of its kind in front of the other pieces of its run and of a
text. -/
def Piece.Fits (piece : Piece) (pieces : Trivia) (after : List Char) : Prop :=
  match piece.kind with
  | .whitespace =>
    piece.text ≠ [] ∧ (∀ c ∈ piece.text, c ∈ [' ', '\t', '\x0c']) ∧
      ∀ next ∈ pieces.head?, next.kind ≠ .whitespace
  | .newline =>
    piece.text = ['\n'] ∨ piece.text = ['\r', '\n'] ∨
      piece.text = ['\r'] ∧ after.head? ≠ some '\n'
  | .lineComment =>
    (∃ cs, piece.text = '/' :: '/' :: cs) ∧ '\r' ∉ piece.text ∧ '\n' ∉ piece.text ∧
      (after = [] ∨ ∃ next ∈ pieces.head?, next.kind = .newline)

namespace Trivia

/-- Whether a text starts with a blank, a line break or the marks of a comment. -/
def Starts : List Char → Prop
  | [] => False
  | c :: cs => c ∈ [' ', '\t', '\x0c', '\n', '\r'] ∨ c = '/' ∧ cs.head? = some '/'

/-- Whether a run of trivia stands in a text from a position on, every piece in the form of its
kind. -/
def Stands (whole : List Char) (start : Nat) : Trivia → Prop
  | [] => True
  | piece :: pieces =>
    Text.slice? start (start + Text.byteLength piece.text) whole = some piece.text ∧
      (∃ after,
        Text.slice? (start + Text.byteLength piece.text) (Text.byteLength whole) whole = some after ∧
        piece.Fits pieces after) ∧
      Stands whole (start + Text.byteLength piece.text) pieces

/-- A run of trivia as the scanner takes it: every piece goes as far as it can, and the run goes on
behind a piece unless that is a line break. -/
def Run : Trivia → List Char → Prop
  | [], _ => True
  | piece :: pieces, after =>
    piece.Valid ∧ piece.Ends (text pieces ++ after) ∧
      (piece.kind = .newline ∨ pieces ≠ [] ∨ Scan.piece? after = none) ∧ Run pieces after

theorem Leads.run {pieces : Trivia} {after : List Char} (leads : pieces.Leads after) :
    pieces.Run after := by
  induction pieces with
  | nil => trivial
  | cons piece pieces ih =>
    obtain ⟨valid, ends, behind⟩ := leads
    exact ⟨valid, ends, .inr (.inr behind.piece?_eq_none), ih behind⟩

theorem Trails.run {pieces : Trivia} {after : List Char} (trails : pieces.Trails after) :
    pieces.Run after := by
  induction pieces with
  | nil => trivial
  | cons piece pieces ih =>
    obtain ⟨valid, ends, behind⟩ := trails
    by_cases newline : piece.kind = .newline
    · rw [if_pos newline] at behind
      subst behind
      exact ⟨valid, ends, .inl newline, trivial⟩
    · rw [if_neg newline] at behind
      refine ⟨valid, ends, .inr ?_, ih behind⟩
      cases pieces with
      | nil => exact .inr behind
      | cons next pieces => exact .inl (List.cons_ne_nil next pieces)

/-- A line break ends the trivia behind a lexeme. -/
theorem Trails.eq_nil_of_newline {pieces front behind : Trivia} {piece : Piece} {after : List Char}
    (trails : pieces.Trails after) (split : pieces = front ++ piece :: behind)
    (newline : piece.kind = .newline) : behind = [] := by
  induction front generalizing pieces with
  | nil =>
    subst split
    have rest := trails.2.2
    rwa [if_pos newline] at rest
  | cons first front ih =>
    subst split
    have rest := trails.2.2
    split at rest
    · exact absurd rest (by simp)
    · exact ih rest rfl

end Trivia

namespace Scan

theorem isInlineBlank_iff_mem (c : Char) : isInlineBlank c = true ↔ c ∈ [' ', '\t', '\x0c'] := by
  simp [isInlineBlank, or_assoc]

/-- A text at the front of which the scanner finds no trivia starts with none. -/
theorem not_starts_of_piece? {cs : List Char} (nothing : piece? cs = none) : ¬ Trivia.Starts cs := by
  cases cs with
  | nil => exact id
  | cons c cs =>
    obtain ⟨noFeed, noReturn, noBlank, noComment⟩ := (piece?_cons_eq_none_iff c cs).mp nothing
    rintro (blank | ⟨slash, second⟩)
    · have inside : isInlineBlank c = true := by
        rw [isInlineBlank_iff_mem]
        simpa [noFeed, noReturn] using blank
      rw [noBlank] at inside
      cases inside
    · cases cs with
      | nil => cases second
      | cons d cs =>
        have different := noComment slash
        obtain rfl : d = '/' := Option.some.inj second
        cases different

end Scan

/-- The first character of a piece tells its kind. -/
theorem Piece.Valid.startsWith_append {piece : Piece} (valid : piece.Valid) (after : List Char) :
    (startsWith isInlineBlank (piece.text ++ after) = true ↔ piece.kind = .whitespace) ∧
      (startsWith (!isLineBreak ·) (piece.text ++ after) = false ↔ piece.kind = .newline) := by
  obtain ⟨kind, text⟩ := piece
  cases kind with
  | whitespace =>
    obtain ⟨some, blank⟩ := valid
    obtain ⟨c, cs, rfl⟩ := List.exists_cons_of_ne_nil some
    have first : isInlineBlank c = true := blank c (.head _)
    have inLine : isLineBreak c = false := by
      rcases (by simpa [isInlineBlank] using first) with (rfl | rfl) | rfl <;> decide
    simp [startsWith, first, inLine]
  | newline =>
    rcases valid with rfl | rfl | rfl <;> simp [startsWith, isInlineBlank, isLineBreak]
  | lineComment =>
    obtain ⟨cs, rfl, _⟩ := valid
    simp [startsWith, isInlineBlank, isLineBreak]

namespace Trivia.Run

variable {piece : Piece} {pieces : Trivia} {after : List Char}

/-- Where a run goes on behind a comment, it goes on with a line break. -/
theorem newline_or_eq_nil (run : Run pieces after)
    (goesOn : pieces ≠ [] ∨ Scan.piece? after = none)
    (ends : startsWith (!isLineBreak ·) (text pieces ++ after) = false) :
    text pieces ++ after = [] ∨ ∃ next ∈ pieces.head?, next.kind = .newline := by
  cases pieces with
  | nil =>
    have nothing := goesOn.resolve_left (absurd rfl)
    cases after with
    | nil => exact .inl rfl
    | cons c cs =>
      obtain ⟨noFeed, noReturn, _, _⟩ := (Scan.piece?_cons_eq_none_iff c cs).mp nothing
      have breaks : isLineBreak c = true := by simpa [startsWith] using ends
      simp [isLineBreak, noFeed, noReturn] at breaks
  | cons next pieces =>
    rw [text_cons, List.append_assoc, (run.1.startsWith_append _).2] at ends
    exact .inr ⟨next, rfl, ends⟩

/-- Every piece of a run has the form of its kind. -/
theorem fits (run : Run (piece :: pieces) after) : piece.Fits pieces (text pieces ++ after) := by
  obtain ⟨valid, ends, goesOn, behind⟩ := run
  obtain ⟨kind, lexeme⟩ := piece
  cases kind with
  | whitespace =>
    obtain ⟨some, blank⟩ := valid
    refine ⟨some, fun c inside => (Scan.isInlineBlank_iff_mem c).mp (blank c inside), ?_⟩
    intro next first whitespace
    obtain ⟨others, rfl⟩ := List.head?_eq_some_iff.mp first
    have notBlank : startsWith isInlineBlank (text (next :: others) ++ after) = false := ends
    rw [text_cons, List.append_assoc, (behind.1.startsWith_append _).1.mpr whitespace] at notBlank
    cases notBlank
  | newline =>
    rcases valid with feed | both | carriage
    · exact .inl feed
    · exact .inr (.inl both)
    · refine .inr (.inr ⟨carriage, ?_⟩)
      have noFeed := ends carriage
      intro feed
      obtain ⟨others, same⟩ := List.head?_eq_some_iff.mp feed
      rw [same] at noFeed
      cases noFeed
  | lineComment =>
    obtain ⟨cs, rfl, inLine⟩ := valid
    -- No break is among the marks of a comment, nor in what follows them.
    have noBreak (c : Char) (breaks : isLineBreak c = true) : c ∉ '/' :: '/' :: cs := by
      simp only [List.mem_cons, not_or]
      refine ⟨?_, ?_, fun inside => ?_⟩
      · rintro rfl
        cases breaks
      · rintro rfl
        cases breaks
      · have other := inLine c inside
        rw [breaks] at other
        cases other
    refine ⟨⟨cs, rfl⟩, noBreak _ rfl, noBreak _ rfl, ?_⟩
    exact behind.newline_or_eq_nil (goesOn.resolve_left nofun) ends

/-- A run stands where it was taken. -/
theorem stands {pieces : Trivia} (run : Run pieces after) (before : List Char) :
    Stands (before ++ (text pieces ++ after)) (Text.byteLength before) pieces := by
  induction pieces generalizing before with
  | nil => trivial
  | cons piece pieces ih =>
    have whole : before ++ (text (piece :: pieces) ++ after) =
        before ++ (piece.text ++ (text pieces ++ after)) := by
      rw [text_cons, List.append_assoc]
    have further := ih run.2.2.2 (before ++ piece.text)
    rw [List.append_assoc, Text.byteLength_append] at further
    rw [whole]
    exact ⟨Text.slice?_append .., ⟨_, (Text.slice?_around ..).2, run.fits⟩, further⟩

end Trivia.Run

/-! ## Tokens where they stand -/

/-- What the scanner takes at the front of a text: a token with a lexeme, or the end of the file
with all that is left. -/
inductive Token.Taken : Token → List Char → Prop
  | lexeme {token : Token} {after : List Char} : token.Reads after → Taken token after
  | endOfFile {pieces : Trivia} : pieces.Leads [] → Taken ⟨pieces, .endOfFile, [], []⟩ []

namespace Token.Taken

variable {token : Token} {after : List Char}

theorem leads (taken : token.Taken after) :
    token.leading.Leads (token.lexeme ++ (token.trailing.text ++ after)) := by
  cases taken with
  | lexeme reads => exact reads.leads
  | endOfFile leads => exact leads

theorem trails (taken : token.Taken after) : token.trailing.Trails after := by
  cases taken with
  | lexeme reads => exact reads.trails
  | endOfFile leads => exact Scan.piece?_nil

/-- The end of the file has nothing behind its trivia. -/
theorem eq_of_endOfFile (taken : token.Taken after) (ends : token.kind = .endOfFile) :
    token.text = token.leading.text ∧ token.lexeme = [] ∧ token.trailing = [] ∧ after = [] := by
  cases taken with
  | lexeme reads => exact absurd ends reads.kind_ne_endOfFile
  | endOfFile leads => exact ⟨by simp [text], rfl, rfl, rfl⟩

/-- Any other token has a lexeme. -/
theorem lexeme_ne_nil (taken : token.Taken after) (real : token.kind ≠ .endOfFile) :
    token.lexeme ≠ [] := by
  cases taken with
  | lexeme reads => exact reads.some
  | endOfFile leads => exact absurd rfl real

end Token.Taken

/-- Whether a token stands in a text where its position says, with the trivia around it. -/
structure PlacedToken.Attached (placed : PlacedToken) (whole : List Char) : Prop where
  /-- The span cuts out the token with its trivia. -/
  slice_span : Text.slice? placed.span.start placed.span.stop whole = some placed.token.text
  /-- The inner span cuts out the lexeme. -/
  slice_lexemeSpan :
    Text.slice? placed.lexemeSpan.start placed.lexemeSpan.stop whole = some placed.token.lexeme
  /-- No trivia stands where the lexeme starts. -/
  not_starts : ∃ rest,
    Text.slice? placed.lexemeSpan.start (Text.byteLength whole) whole = some rest ∧
      ¬ Trivia.Starts rest
  /-- The trivia in front starts where the token does. -/
  leading : placed.token.leading.Stands whole placed.span.start
  /-- The trivia behind starts where the lexeme ends. -/
  trailing : placed.token.trailing.Stands whole placed.lexemeSpan.stop
  /-- The trivia behind has no line break but at its end. -/
  newline_last : ∀ front piece behind, placed.token.trailing = front ++ piece :: behind →
    piece.kind = .newline → behind = []

/-- A token that the scanner takes stands behind what is in front of it. -/
theorem Token.Taken.attached {token : Token} {after : List Char} (taken : token.Taken after)
    (before : List Char) :
    PlacedToken.Attached ⟨Text.byteLength before, token⟩ (before ++ (token.text ++ after)) := by
  have parts : before ++ (token.text ++ after) = (before ++ token.leading.text) ++
      (token.lexeme ++ (token.trailing.text ++ after)) := by
    simp [text]
  have leads := taken.leads
  exact {
    slice_span := Text.slice?_append ..
    slice_lexemeSpan := by
      have lexeme := Text.slice?_append (before ++ token.leading.text) token.lexeme
        (token.trailing.text ++ after)
      rwa [← parts, Text.byteLength_append] at lexeme
    not_starts := by
      have rest := (Text.slice?_around before token.leading.text
        (token.lexeme ++ (token.trailing.text ++ after))).2
      rw [← List.append_assoc before, ← parts] at rest
      exact ⟨_, rest, Scan.not_starts_of_piece? leads.piece?_eq_none⟩
    leading := by
      have stands := leads.run.stands before
      rwa [← List.append_assoc, ← parts] at stands
    trailing := by
      have stands := taken.trails.run.stands (before ++ token.leading.text ++ token.lexeme)
      rwa [List.append_assoc, ← parts, Text.byteLength_append, Text.byteLength_append] at stands
    newline_last := fun front piece behind => taken.trails.eq_nil_of_newline }

/-! ## Steps of a tokenizer -/

namespace Tokenizer

/-- Whether a tokenizer stands within a text: it has read a token of the text and goes on behind
it. -/
inductive Within (whole : List Char) : Tokenizer → Prop
  | behind {before after : List Char} {token : Token} :
      whole = before ++ (token.text ++ after) → token.Taken after →
        Within whole (readAhead (Text.byteLength before) token after)

theorem within_read (before cs : List Char) :
    Within (before ++ cs) (read (Text.byteLength before) cs) := by
  rcases TokenStream.reads_or_leads cs with ⟨token, after, reads, rfl⟩ | ⟨pieces, leads, rfl⟩
  · rw [read_of_reads reads]
    exact .behind rfl (.lexeme reads)
  · rw [read_of_leads leads]
    exact .behind (by simp [Token.text]) (.endOfFile leads)

/-- What is read starts where it is read, with all trivia that stands there. -/
theorem current_read (start : Nat) (cs : List Char) :
    (read start cs).current.start = start ∧
      (read start cs).current.token.leading = (Scan.leading cs).1 := by
  rw [read]
  split
  all_goals
    rename_i found
    rw [found]
    exact ⟨rfl, rfl⟩

variable {whole : List Char} {tokenizer : Tokenizer}

/-- A step keeps a tokenizer within its text. -/
theorem Within.next (within : Within whole tokenizer) : Within whole tokenizer.next := by
  cases within with
  | @behind before after token split _ =>
    have step := within_read (before ++ token.text) after
    rw [List.append_assoc, ← split, Text.byteLength_append] at step
    exact step

/-- The token that was read stands in the text. -/
theorem Within.attached (within : Within whole tokenizer) : tokenizer.current.Attached whole := by
  cases within with
  | @behind before after token split taken =>
    rw [split]
    exact taken.attached before

theorem Within.lexeme_ne_nil (within : Within whole tokenizer) (real : tokenizer.kind ≠ .endOfFile) :
    tokenizer.current.token.lexeme ≠ [] := by
  cases within with
  | behind _ taken => exact taken.lexeme_ne_nil real

/-- A token starts where the one in front of it ends. -/
theorem Within.start_next (within : Within whole tokenizer) :
    tokenizer.next.current.start = tokenizer.current.span.stop := by
  cases within with
  | behind _ _ => exact (current_read ..).1

/-- A token has trivia in front of it only behind a line break. -/
theorem Within.endsLine (within : Within whole tokenizer)
    (some : tokenizer.next.current.token.leading ≠ []) :
    tokenizer.current.token.trailing.EndsLine := by
  cases within with
  | @behind before after token split taken =>
    rcases taken.trails.endsLine_or with endsLine | nothing
    · exact endsLine
    · have none : (readAhead (Text.byteLength before) token after).next.current.token.leading = [] := by
        rw [Tokenizer.next, (current_read ..).2]
        exact congrArg Prod.fst (Scan.leading_of_piece?_eq_none nothing)
      exact absurd none some

/-- At the end of the file nothing is left, and a step stays there. -/
theorem Within.atEnd (within : Within whole tokenizer) (ends : tokenizer.kind = .endOfFile) :
    tokenizer.current.lexemeSpan = .empty (Text.byteLength whole) ∧
      tokenizer.current.token.trailing = [] ∧
      tokenizer.current.span.stop = Text.byteLength whole ∧
      tokenizer.next.current = ⟨Text.byteLength whole, .bare .endOfFile []⟩ := by
  cases within with
  | @behind before after token split taken =>
    obtain ⟨textEq, lexemeEq, trailingEq, rfl⟩ := taken.eq_of_endOfFile ends
    have stop : Text.byteLength whole = Text.byteLength before + token.leading.byteLength := by
      rw [split, List.append_nil, textEq, Text.byteLength_append, Trivia.byteLength]
    have length : token.byteLength = token.leading.byteLength := congrArg Text.byteLength textEq
    refine ⟨?_, trailingEq, ?_, ?_⟩
    · simp [readAhead, PlacedToken.lexemeSpan, Token.lexemeSpan, Span.ofLength, Span.empty,
        lexemeEq, stop]
    · rw [stop, ← length]
      rfl
    · have nothing : Trivia.Leads [] [] := Scan.piece?_nil
      rw [stop, ← length]
      exact congrArg current (read_of_leads nothing _)

/-! ## Runs of a tokenizer -/

theorem after_add (tokenizer : Tokenizer) (first more : Nat) :
    tokenizer.after (first + more) = (tokenizer.after first).after more := by
  induction first generalizing tokenizer with
  | zero => rw [Nat.zero_add, after]
  | succ first ih =>
    rw [Nat.succ_add]
    exact ih tokenizer.next

theorem Within.after (within : Within whole tokenizer) (steps : Nat) :
    Within whole (tokenizer.after steps) := by
  induction steps generalizing tokenizer with
  | zero => exact within
  | succ steps ih => exact ih within.next

/-- What holds at the end of the file, and of a tokenizer if it holds one step further, holds of
every tokenizer, since each of them comes to the end of the file. -/
theorem induction_to_endOfFile {motive : Tokenizer → Prop}
    (stop : ∀ tokenizer, tokenizer.kind = .endOfFile → motive tokenizer)
    (step : ∀ tokenizer, tokenizer.kind ≠ .endOfFile → motive tokenizer.next → motive tokenizer)
    (tokenizer : Tokenizer) : motive tokenizer := by
  induction counted : tokenizer.ahead generalizing tokenizer with
  | zero =>
    by_cases ends : tokenizer.kind = .endOfFile
    · exact stop tokenizer ends
    · rw [ahead_of_kind_ne ends] at counted
      cases counted
  | succ count ih =>
    by_cases ends : tokenizer.kind = .endOfFile
    · exact stop tokenizer ends
    · rw [ahead_of_kind_ne ends] at counted
      exact step tokenizer ends (ih tokenizer.next (Nat.succ.inj counted))

/-- The end of the file comes first behind all tokens ahead. -/
theorem kind_after_ahead (tokenizer : Tokenizer) :
    (∀ steps < tokenizer.ahead, (tokenizer.after steps).kind ≠ .endOfFile) ∧
      (tokenizer.after tokenizer.ahead).kind = .endOfFile := by
  induction tokenizer using induction_to_endOfFile with
  | stop tokenizer ends =>
    rw [ahead_of_kind_eq ends]
    exact ⟨nofun, ends⟩
  | step tokenizer real ih =>
    rw [ahead_of_kind_ne real]
    refine ⟨?_, ih.2⟩
    rintro (_ | steps) before
    · exact real
    · exact ih.1 steps (Nat.lt_of_succ_lt_succ before)

/-- The tokens up to the end of the file tile the text from the first one on. -/
theorem Within.tile (within : Within whole tokenizer) :
    Span.Tile tokenizer.current.start
      ((List.range (tokenizer.ahead + 1)).map fun steps => (tokenizer.after steps).current.span)
      (Text.byteLength whole) := by
  induction tokenizer using induction_to_endOfFile with
  | stop tokenizer ends =>
    rw [ahead_of_kind_eq ends]
    exact ⟨rfl, Nat.le_add_right .., (within.atEnd ends).2.2.1⟩
  | step tokenizer real ih =>
    have behind := ih within.next
    rw [within.start_next] at behind
    rw [ahead_of_kind_ne real, List.range_succ_eq_map, List.map_cons, List.map_map]
    exact ⟨rfl, Nat.le_add_right .., behind⟩

/-- Behind the end of the file every step gives the end of the file without trivia. -/
theorem Within.current_after_end (within : Within whole tokenizer)
    (ends : tokenizer.kind = .endOfFile) (steps : Nat) :
    (tokenizer.after (steps + 1)).current = ⟨Text.byteLength whole, .bare .endOfFile []⟩ := by
  have next := (within.atEnd ends).2.2.2
  induction steps generalizing tokenizer with
  | zero => exact next
  | succ steps ih =>
    have endsNext : tokenizer.next.kind = .endOfFile := by
      rw [kind, next]
      rfl
    exact ih within.next endsNext (within.next.atEnd endsNext).2.2.2

/-- Whether a tokenizer gives every byte of a text to one token, each with the trivia that belongs
to it. -/
structure Attaches (tokenizer : Tokenizer) (whole : List Char) : Prop where
  /-- The tokens ahead are those in front of the first end of the file. -/
  real : ∀ steps < tokenizer.ahead, (tokenizer.after steps).kind ≠ .endOfFile
  ends : (tokenizer.after tokenizer.ahead).kind = .endOfFile
  /-- The spans of the tokens tile the text. -/
  tile : Span.Tile 0
    ((List.range (tokenizer.ahead + 1)).map fun steps => (tokenizer.after steps).current.span)
    (Text.byteLength whole)
  /-- Every token stands in the text, with trivia of the right form. -/
  attached : ∀ steps, (tokenizer.after steps).current.Attached whole
  /-- In front of the end of the file every token has a lexeme. -/
  lexeme : ∀ steps < tokenizer.ahead, (tokenizer.after steps).current.token.lexeme ≠ []
  /-- Trivia in front of a token follows a line break. -/
  leading : ∀ steps, (tokenizer.after (steps + 1)).current.token.leading ≠ [] →
    (tokenizer.after steps).current.token.trailing.EndsLine
  /-- The end of the file is empty, at the end of the text and without trivia behind it. -/
  lexemeSpan_end :
    (tokenizer.after tokenizer.ahead).current.lexemeSpan = .empty (Text.byteLength whole)
  trailing_end : (tokenizer.after tokenizer.ahead).current.token.trailing = []
  /-- Every later token is the end of the file at the end of the text, without any trivia. -/
  later : ∀ steps > tokenizer.ahead,
    (tokenizer.after steps).current = ⟨Text.byteLength whole, .bare .endOfFile []⟩

/-- Behind the end of the file nothing is scanned. -/
theorem get_of_lt (text : List Char) {steps : Nat} (behind : (ofText text).ahead < steps) :
    (TokenStream.scan text).get steps = ⟨Text.byteLength text, .bare .endOfFile []⟩ := by
  have beyond : (TokenStream.scan text).placed.length ≤ steps := by
    rw [length_placed]
    exact behind
  rw [TokenStream.get, List.getD_eq_getElem?_getD, List.getElem?_eq_none beyond,
    TokenStream.text_scan, Option.getD_none]

/-- The tokenizer of a text gives every byte of it to one token, and the trivia to the token in
front of it up to the end of the line, else to the one behind it. Its tokens are those that scanning
the whole text gives. -/
theorem attaches_ofText (text : List Char) :
    (ofText text).Attaches text ∧
      ∀ steps, ((ofText text).after steps).current = (TokenStream.scan text).get steps := by
  have within : Within text (ofText text) := within_read [] text
  obtain ⟨real, ends⟩ := kind_after_ahead (ofText text)
  obtain ⟨lexemeSpan, trailing, _, _⟩ := (within.after _).atEnd ends
  have later : ∀ steps > (ofText text).ahead,
      ((ofText text).after steps).current = ⟨Text.byteLength text, .bare .endOfFile []⟩ := by
    intro steps behind
    obtain ⟨more, rfl⟩ := Nat.exists_eq_add_of_lt behind
    rw [Nat.add_assoc, after_add]
    exact (within.after _).current_after_end ends more
  constructor
  · exact {
      real := real
      ends := ends
      tile := by
        have start : (ofText text).current.start = 0 := (current_read 0 text).1
        have tile := within.tile
        rwa [start] at tile
      attached := fun steps => (within.after steps).attached
      lexeme := fun steps before => (within.after steps).lexeme_ne_nil (real steps before)
      leading := by
        intro steps some
        rw [after_add] at some
        exact (within.after steps).endsLine some
      lexemeSpan_end := lexemeSpan
      trailing_end := trailing
      later := later }
  · intro steps
    by_cases inside : steps ≤ (ofText text).ahead
    · exact current_after_ofText text inside
    · have behind := Nat.lt_of_not_le inside
      rw [later steps behind, get_of_lt text behind]

end Tokenizer

end ServiceAnnotator
