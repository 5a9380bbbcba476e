import ServiceAnnotator.Proofs.Scan.Attached
import ServiceAnnotator.Proofs.Scan.Name

/-!
# Lexemes alone

A lexeme is decided by its own characters: cut out of its text it is read as one token of the same
kind. The classes of lexemes look at what stands behind a lexeme only to find out that it does not
belong to it, and nothing does so as well. A quotation mark is the one exception, since it is an
identifier in front of a backslash even if the backslash escapes nothing.
-/

namespace ServiceAnnotator

namespace Scan

/-! ## Counting rules -/

/-- Whether a rule that counts the characters of a lexeme counts the same when something behind the
lexeme is cut off. -/
def SelfContained (count : List Char → Nat) : Prop :=
  ∀ front behind, count (front ++ behind) ≤ front.length → count front = count (front ++ behind)

/-- Two rules one behind the other. -/
theorem SelfContained.andThen {first second : List Char → Nat} (firstOne : SelfContained first)
    (secondOne : SelfContained second) :
    SelfContained fun cs => first cs + second (cs.drop (first cs)) := by
  intro front behind within
  simp only at within ⊢
  have inFront : first (front ++ behind) ≤ front.length := Nat.le_trans (Nat.le_add_right ..) within
  have sameFirst := firstOne front behind inFront
  rw [List.drop_append_of_le_length inFront] at within ⊢
  rw [sameFirst, secondOne]
  rw [List.length_drop]
  omega

theorem selfContained_countWhile (p : Char → Bool) : SelfContained (countWhile p) := by
  intro front behind within
  induction front with
  | nil => exact (Nat.le_zero.mp within).symm
  | cons c front ih =>
    simp only [List.cons_append, countWhile_cons, List.length_cons] at within ⊢
    split
    · rename_i inside
      rw [if_pos inside] at within
      rw [ih (by omega)]
    · rfl

theorem selfContained_countOne (p : Char → Bool) : SelfContained (countOne p) := by
  intro front behind within
  cases front with
  | nil => exact (Nat.le_zero.mp within).symm
  | cons c front => rfl

/-! ## Numbers -/

theorem selfContained_fractionLength : SelfContained fractionLength := by
  intro front behind within
  cases front with
  | nil => exact (Nat.le_zero.mp within).symm
  | cons c front =>
    simp only [List.cons_append, fractionLength_cons, List.length_cons] at within ⊢
    cases front with
    | nil =>
      -- A point at the end of the text has no digit behind it.
      rw [if_neg (by simp [startsWith])]
      split at within
      · rename_i point
        have counted : countWhile Char.isDigit behind = 0 := by
          rw [List.nil_append, List.length_nil] at within
          omega
        rw [countWhile_eq_zero_iff] at counted
        rw [List.nil_append, counted] at point
        cases point.2
      · rename_i noPoint
        exact (if_neg noPoint).symm
    | cons d front =>
      have sameStart : startsWith Char.isDigit (d :: front ++ behind) =
          startsWith Char.isDigit (d :: front) := rfl
      rw [sameStart] at within ⊢
      split
      · rename_i point
        rw [if_pos point] at within
        rw [selfContained_countWhile Char.isDigit (d :: front) behind (by omega)]
      · rfl

theorem selfContained_exponentLength : SelfContained exponentLength := by
  have digits := (selfContained_countOne fun c => c == '+' || c == '-').andThen
    (selfContained_countWhile Char.isDigit)
  intro front behind within
  cases front with
  | nil => exact (Nat.le_zero.mp within).symm
  | cons c front =>
    simp only [List.cons_append, exponentLength_cons, List.length_cons] at within ⊢
    split
    · rename_i letter
      rw [if_pos letter] at within
      have same := digits front behind (by simp only; omega)
      simp only at same
      rw [same]
    · rfl

theorem selfContained_decimalLength : SelfContained decimalLength :=
  (((selfContained_countWhile Char.isDigit).andThen selfContained_fractionLength).andThen
    selfContained_exponentLength).andThen (selfContained_countOne _)

theorem selfContained_numberTail (first : Char) : SelfContained (numberTail first) := by
  intro front behind within
  simp only [numberTail_eq] at within ⊢
  cases front with
  | nil =>
    rw [if_neg (by simp [startsWith])]
    split at within
    · simp only [List.length_nil] at within
      omega
    · rename_i notHex
      rw [if_neg notHex]
      exact selfContained_decimalLength [] behind within
  | cons c front =>
    simp only [List.cons_append, startsWith, List.drop_succ_cons, List.drop_zero, List.length_cons]
      at within ⊢
    split
    · rename_i hex
      rw [if_pos hex] at within
      rw [selfContained_countWhile isHexDigit front behind (by omega)]
    · rename_i notHex
      rw [if_neg notHex] at within
      exact selfContained_decimalLength (c :: front) behind within

/-! ## Identifiers -/

theorem selfContained_identifierTail : SelfContained identifierTail := by
  intro front behind within
  match front with
  | [] => exact (Nat.le_zero.mp within).symm
  | c :: front =>
    simp only [List.cons_append, identifierTail_cons, List.length_cons] at within ⊢
    by_cases escape : c = '\\' ∧ startsWith isEscapable (front ++ behind) = true
    · rw [if_pos escape] at within ⊢
      cases front with
      | nil =>
        simp only [List.length_nil] at within
        omega
      | cons d front =>
        simp only [List.cons_append, List.drop_succ_cons, List.drop_zero, List.length_cons]
          at within ⊢
        rw [if_pos (show _ ∧ startsWith isEscapable (d :: front) = true from escape),
          selfContained_identifierTail front behind (by omega)]
    · have noEscape : ¬(c = '\\' ∧ startsWith isEscapable front = true) := by
        rintro ⟨backslash, escaped⟩
        cases front with
        | nil => cases escaped
        | cons d front => exact escape ⟨backslash, escaped⟩
      rw [if_neg escape] at within ⊢
      rw [if_neg noEscape]
      split
      · rename_i part
        rw [if_pos part] at within
        rw [selfContained_identifierTail front behind (by omega)]
      · rfl
termination_by front => front.length

/-! ## Rules that give a kind -/

/-- Whether a rule that gives the kind of a lexeme as well gives the same when something behind the
lexeme is cut off. -/
def SelfContainedKind (rule : List Char → Kind × Nat) : Prop :=
  ∀ front behind, (rule (front ++ behind)).2 ≤ front.length → rule front = rule (front ++ behind)

theorem selfContained_stringTail : SelfContainedKind stringTail := by
  intro front behind within
  match front with
  | [] =>
    have none := (stringTail_eq_zero_iff behind _).mp (Prod.ext rfl (Nat.le_zero.mp within))
    exact (Prod.ext none.1 (Nat.le_zero.mp within)).symm
  | c :: front =>
    simp only [List.cons_append, stringTail_cons, List.length_cons] at within ⊢
    split
    · rfl
    · rename_i noQuote
      rw [if_neg noQuote] at within
      split
      · rename_i backslash
        rw [if_pos backslash] at within
        cases front with
        | nil =>
          -- A backslash at the end would take the first character of what is cut off.
          rw [List.nil_append] at within ⊢
          split at within
          · simp only [List.length_nil] at within
            omega
          · rename_i broken
            rw [if_neg broken]
            rfl
        | cons d front =>
          simp only [List.cons_append, startsWith, List.drop_succ_cons, List.drop_zero,
            List.length_cons] at within ⊢
          split
          · rename_i inLine
            rw [if_pos inLine] at within
            rw [selfContained_stringTail front behind (by simp only at within; omega)]
          · rfl
      · rename_i noBackslash
        rw [if_neg noBackslash] at within
        split
        · rfl
        · rename_i inLine
          rw [if_neg inLine] at within
          rw [selfContained_stringTail front behind (by simp only at within; omega)]
termination_by front => front.length

theorem selfContained_templateTail : SelfContainedKind templateTail := by
  intro front behind within
  have counted := length_countWhile_le (· != '\x60') front
  have same := selfContained_countWhile (· != '\x60') front behind
  simp only [templateTail] at within ⊢
  split at within
  · rename_i closed
    simp only at within
    have inside := same (by omega)
    rw [if_pos closed, inside, if_pos (by omega)]
  · rename_i unclosed
    -- Without a closing mark the literal is all there is, so nothing is cut off.
    have whole := length_countWhile_le (· != '\x60') (front ++ behind)
    simp only at within
    rw [List.length_append] at unclosed whole
    have nothing : behind = [] := List.eq_nil_of_length_eq_zero (by omega)
    rw [nothing, List.append_nil]

theorem selfContained_points :
    SelfContainedKind fun cs => if cs.take 2 = ['.', '.'] then (.ellipsis, 2) else (.dot, 0) := by
  intro front behind within
  dsimp only at within ⊢
  match front with
  | [] =>
    split at within
    · cases within
    · rename_i differs
      rw [if_neg differs, if_neg (by decide)]
  | [c] =>
    split at within
    · rw [List.length_singleton] at within
      omega
    · rename_i differs
      rw [if_neg differs, if_neg (by simp)]
  | c :: d :: front => rfl

/-- An identifier whose first character is escaped. -/
theorem selfContained_escapedTail :
    SelfContainedKind fun cs =>
      if startsWith isEscapable cs then (.identifier, 1 + identifierTail (cs.drop 1))
      else (.unknown, 0) := by
  intro front behind within
  dsimp only at within ⊢
  cases front with
  | nil =>
    split at within
    · simp only [List.length_nil] at within
      omega
    · rename_i stops
      exact (if_neg stops).symm
  | cons c front =>
    simp only [List.cons_append, startsWith, List.drop_succ_cons, List.drop_zero, List.length_cons]
      at within ⊢
    split
    · rename_i escape
      rw [if_pos escape] at within
      simp only at within
      rw [selfContained_identifierTail front behind (by omega)]
    · rfl

/-- An identifier behind a quotation mark, which without any character of its own is no
identifier. -/
theorem quotedTail_of_append {front behind : List Char}
    (within : (lexemeTail '\'' (front ++ behind)).2 ≤ front.length) :
    lexemeTail '\'' front =
      (if front = [] then .unknown else (lexemeTail '\'' (front ++ behind)).1,
        (lexemeTail '\'' (front ++ behind)).2) := by
  cases front with
  | nil => exact Prod.ext rfl (Nat.le_zero.mp within).symm
  | cons c front =>
    rw [lexemeTail_quoted] at within
    rw [if_neg (List.cons_ne_nil c front), lexemeTail_quoted, lexemeTail_quoted]
    have sameStart : startsWith followsQuote (c :: front ++ behind) =
        startsWith followsQuote (c :: front) := rfl
    rw [sameStart] at within ⊢
    split
    · rename_i follows
      rw [if_pos follows] at within
      rw [selfContained_identifierTail (c :: front) behind within]
    · rfl

/-- An operator that begins with an equals sign. -/
theorem selfContained_equalsTail : SelfContainedKind (lexemeTail '=') := by
  intro front behind within
  rw [lexemeTail_equals] at within
  rw [lexemeTail_equals, lexemeTail_equals]
  cases front with
  | nil =>
    rw [List.nil_append] at within ⊢
    split at within
    · -- An operator would take a character of what is cut off.
      rename_i follows
      have none := Nat.le_zero.mp within
      rw [countWhile_eq_zero_iff, startsWith_operator_of_equals follows] at none
      cases none
    · rename_i stops
      exact (if_neg stops).symm
  | cons d front =>
    have sameStart : startsWith (fun c => c == '=' || c == '>') (d :: front ++ behind) =
        startsWith (fun c => c == '=' || c == '>') (d :: front) := rfl
    rw [sameStart] at within ⊢
    split
    · rename_i follows
      rw [if_pos follows] at within
      rw [selfContained_countWhile isOperator (d :: front) behind within]
    · rfl

/-- A lexeme of a class without a character of its own. -/
theorem selfContained_wordTail {c : Char}
    (plain : "@:;,()\x7b\x7d[]?/.\"\x60#'\\".toList.contains c = false) :
    SelfContainedKind (lexemeTail c) := by
  intro front behind within
  cases wordClass plain with
  | equals => exact selfContained_equalsTail front behind within
  | number taken =>
    rw [taken] at within
    rw [taken, taken, selfContained_numberTail c front behind within]
  | name start taken =>
    rw [taken] at within
    have same := selfContained_identifierTail front behind within
    rw [taken, taken, same, List.take_append_of_le_length within]
  | operator taken =>
    rw [taken] at within
    rw [taken, taken, selfContained_countWhile isOperator front behind within]
  | unknown taken => rw [taken, taken]

/-- Where a lexeme ends within a text, it does not matter what is cut off behind, except for a
quotation mark alone. -/
theorem lexemeTail_of_append {c : Char} {front behind : List Char}
    (within : (lexemeTail c (front ++ behind)).2 ≤ front.length) :
    lexemeTail c front =
      (if c :: front = ['\''] then .unknown else (lexemeTail c (front ++ behind)).1,
        (lexemeTail c (front ++ behind)).2) := by
  by_cases quote : c = '\''
  · subst quote
    rw [quotedTail_of_append within]
    simp
  · rw [if_neg fun same => quote (List.cons.inj same).1]
    cases lexemeClass c with
    | mark isMark => rw [lexemeTail_of_mem_punctuation isMark, lexemeTail_of_mem_punctuation isMark]
    | point => exact selfContained_points front behind within
    | string => exact selfContained_stringTail front behind within
    | template => exact selfContained_templateTail front behind within
    | line => exact Prod.ext rfl (selfContained_countWhile (!isLineBreak ·) front behind within)
    | quoted => exact absurd rfl quote
    | escaped => exact selfContained_escapedTail front behind within
    | word plain => exact selfContained_wordTail plain front behind within

/-- Where no trivia stands in front of more text, none stands without it. -/
theorem piece?_eq_none_of_append {c : Char} {front behind : List Char}
    (nothing : piece? (c :: front ++ behind) = none) : piece? (c :: front) = none := by
  rw [List.cons_append, piece?_cons_eq_none_iff] at nothing
  rw [piece?_cons_eq_none_iff]
  refine ⟨nothing.1, nothing.2.1, nothing.2.2.1, fun slash => ?_⟩
  have noComment := nothing.2.2.2 slash
  cases front with
  | nil => rfl
  | cons d front => exact noComment

end Scan

/-! ## Tokens -/

namespace Token

/-- The kind that the lexeme of a token has without anything behind it. -/
def kindAlone (token : Token) : Kind := if token.lexeme = ['\''] then .unknown else token.kind

variable {token : Token} {after : List Char}

/-- A token is read without its trivia and without the text behind it. -/
theorem Reads.alone (reads : token.Reads after) : (bare token.kindAlone token.lexeme).Reads [] := by
  obtain ⟨first, rest, lexemeEq, counted⟩ := reads.exists_lexeme
  have nothing := reads.leads.piece?_eq_none
  rw [lexemeEq] at nothing
  have cut := Scan.lexemeTail_of_append (Nat.le_of_eq (congrArg Prod.snd counted))
  rw [counted] at cut
  refine ⟨reads.some, ?_, ?_, Scan.piece?_nil⟩
  · show Scan.piece? (token.lexeme ++ []) = none
    rw [lexemeEq, List.append_nil]
    exact Scan.piece?_eq_none_of_append nothing
  · intro c tail same
    obtain ⟨rfl, rfl⟩ := List.cons.inj (lexemeEq.symm.trans same)
    show Scan.lexemeTail first (rest ++ []) = (token.kindAlone, rest.length)
    rw [List.append_nil, cut, kindAlone, lexemeEq]

/-- A quotation mark alone is an identifier in front of a backslash and of unknown kind
elsewhere. -/
theorem Reads.kind_of_quote (reads : token.Reads after) (quote : token.lexeme = ['\'']) :
    token.kind =
      if Scan.startsWith (· == '\\') (token.trailing.text ++ after) then .identifier
      else .unknown := by
  have counted : (if Scan.startsWith Scan.followsQuote (token.trailing.text ++ after) then
      (Kind.identifier, Scan.identifierTail (token.trailing.text ++ after)) else (.unknown, 0)) =
      (token.kind, 0) := reads.ends _ _ quote
  split
  · rename_i backslash
    cases behindEq : token.trailing.text ++ after with
    | nil =>
      rw [behindEq] at backslash
      cases backslash
    | cons c cs =>
      rw [behindEq] at backslash counted
      obtain rfl : c = '\\' := beq_iff_eq.mp backslash
      exact (congrArg Prod.fst counted).symm
  · rename_i noBackslash
    rw [Bool.not_eq_true] at noBackslash
    split at counted
    · have isIdentifier : token.kind = .identifier := (congrArg Prod.fst counted).symm
      exact absurd quote (reads.lexeme_ne_quote isIdentifier noBackslash)
    · exact (congrArg Prod.fst counted).symm

end Token

namespace Tokenizer

/-- Whether a text is read as one token of a kind, without trivia, and as nothing else. -/
structure ReadsAlone (lexeme : List Char) (kind : Kind) : Prop where
  /-- The first token spans the text. -/
  current : (ofText lexeme).current = ⟨0, .bare kind lexeme⟩
  /-- Behind it there is nothing but the end of the file. -/
  later : ∀ steps, ((ofText lexeme).after (steps + 1)).current =
    ⟨Text.byteLength lexeme, .bare .endOfFile []⟩

theorem read_nil (start : Nat) : read start [] = readAhead start (.bare .endOfFile []) [] := by
  have nothing : Trivia.Leads [] [] := Scan.piece?_nil
  exact read_of_leads nothing start

/-- At the end of a text a tokenizer stays where it is. -/
theorem after_read_nil (start steps : Nat) : (read start []).after steps = read start [] := by
  induction steps with
  | zero => rfl
  | succ steps ih =>
    have stays : (read start []).next = read start [] := by
      rw [read_nil]
      exact read_nil start
    rw [after, stays, ih]

/-- A text is read as one token of a kind exactly if a token of this kind is read there, unless it
is the end of the file. -/
theorem readsAlone_iff {lexeme : List Char} {kind : Kind} (real : kind ≠ .endOfFile) :
    ReadsAlone lexeme kind ↔ (Token.bare kind lexeme).Reads [] := by
  constructor
  · rintro ⟨current, _⟩
    rw [ofText] at current
    rcases TokenStream.reads_or_leads lexeme with
      ⟨token, after, reads, textEq⟩ | ⟨pieces, leads, textEq⟩
    · rw [textEq, read_of_reads reads] at current
      obtain rfl : token = .bare kind lexeme := by
        rw [textEq]
        exact congrArg PlacedToken.token current
      have nothing : after = [] := by
        rw [Token.text_bare] at textEq
        exact List.self_eq_append_right.mp textEq
      rwa [nothing] at reads
    · have tokenEq := congrArg (·.token.kind) current
      rw [textEq, read_of_leads leads] at tokenEq
      exact absurd tokenEq.symm real
  · intro reads
    have readEq : ofText lexeme = readAhead 0 (.bare kind lexeme) [] := by
      have first := read_of_reads reads 0
      rwa [Token.text_bare, List.append_nil] at first
    refine ⟨congrArg Tokenizer.current readEq, fun steps => ?_⟩
    have stop : 0 + (Token.bare kind lexeme).byteLength = Text.byteLength lexeme := by
      rw [Nat.zero_add, Token.byteLength, Token.text_bare]
    rw [readEq, after, next]
    show ((read (0 + _) []).after steps).current = _
    rw [after_read_nil, stop, read_nil]
    rfl

/-- In front of the end of the file a tokenizer has read a token. -/
theorem Within.reads {whole : List Char} {tokenizer : Tokenizer} (within : Within whole tokenizer)
    (real : tokenizer.kind ≠ .endOfFile) : tokenizer.current.token.Reads tokenizer.rest := by
  cases within with
  | behind _ taken =>
    cases taken with
    | lexeme reads => exact reads
    | endOfFile leads => exact absurd rfl real

/-- The kind of a token is decided by its own lexeme: alone the lexeme is read as one token of the
same kind. There is one exception, a quotation mark in front of a backslash. It is an identifier
there and of unknown kind alone, as it is in front of anything else. -/
theorem readsAlone_after (text : List Char) {steps : Nat}
    (real : ((ofText text).after steps).kind ≠ .endOfFile) :
    let token := ((ofText text).after steps).current.token
    ReadsAlone token.lexeme token.kindAlone ∧
      (ReadsAlone token.lexeme token.kind ↔ ¬(token.kind = .identifier ∧ token.lexeme = ['\''])) ∧
      (token.lexeme = ['\''] → token.kind =
        if Scan.startsWith (· == '\\') (token.trailing.text ++ ((ofText text).after steps).rest) then
          .identifier
        else .unknown) := by
  intro token
  have within : Within text (ofText text) := within_read [] text
  have reads : token.Reads ((ofText text).after steps).rest := (within.after steps).reads real
  have known : token.kind ≠ .endOfFile := real
  have knownAlone : token.kindAlone ≠ .endOfFile := by
    rw [Token.kindAlone]
    split
    · decide
    · exact known
  have alone : ReadsAlone token.lexeme token.kindAlone := (readsAlone_iff knownAlone).mpr reads.alone
  refine ⟨alone, ?_, reads.kind_of_quote⟩
  constructor
  · rintro ⟨current, _⟩ ⟨isIdentifier, quote⟩
    have kindEq := congrArg (·.token.kind) (current.symm.trans alone.current)
    rw [Token.kindAlone, if_pos quote] at kindEq
    have unknown : token.kind = .unknown := kindEq
    rw [isIdentifier] at unknown
    cases unknown
  · intro noException
    have same : token.kindAlone = token.kind := by
      rw [Token.kindAlone]
      split
      · rename_i quote
        have kindEq := reads.kind_of_quote quote
        split at kindEq
        · exact absurd ⟨kindEq, quote⟩ noException
        · exact kindEq.symm
      · rfl
    rwa [same] at alone

/-- A string literal that its line does not close, with a backslash in front of the line break. -/
theorem readsAlone_after_unclosed :
    ((ofText "\"a\\\n".toList).after 0).kind ≠ .endOfFile ∧
      ReadsAlone "\"a\\".toList .unknown := by
  have real : ((ofText "\"a\\\n".toList).after 0).kind ≠ .endOfFile := by decide +kernel
  have token : ((ofText "\"a\\\n".toList).after 0).current.token =
      ⟨[], .unknown, "\"a\\".toList, [⟨.newline, ['\n']⟩]⟩ := by decide +kernel
  have alone := (readsAlone_after "\"a\\\n".toList real).1
  rw [token] at alone
  exact ⟨real, alone⟩

/-- In front of a backslash and a blank a quotation mark is an identifier, alone it is none. -/
theorem not_readsAlone_quote :
    (ofText "'\\ ".toList).current.token = ⟨[], .identifier, ['\''], []⟩ ∧
      ¬ReadsAlone ['\''] .identifier := by
  refine ⟨by decide +kernel, ?_⟩
  rintro ⟨current, _⟩
  have unknown : (ofText ['\'']).current.token.kind = .unknown := by decide +kernel
  rw [current] at unknown
  cases unknown

end Tokenizer

end ServiceAnnotator
