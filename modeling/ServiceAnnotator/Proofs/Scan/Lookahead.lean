import ServiceAnnotator.Syntax.Scan.Lexeme

/-!
# What the scanner sees behind a lexeme

A lexeme ends where its class cannot go on, which the scanner finds out by looking at no more than
two characters behind it. Two texts are alike for the scanner when they agree as far as it may look;
then a lexeme that ends in front of one of them ends in front of the other as well.
-/

namespace ServiceAnnotator.Scan

open ServiceAnnotator.Text

/-- First letters of the keywords that a service declaration may start with. -/
def isServiceInitial (c : Char) : Bool := "pifcs".toList.contains c

/-- Characters that decide alone whether a lexeme goes on, whatever stands behind them. -/
def shields (c : Char) : Bool := c != '\\' && c != '.' && c != '/' && c != '\r'

/-- Texts that no lexeme in front of them can tell apart: they agree, or an at sign stands in the
second where the first goes on with a keyword, or what they have in common shields the rest. -/
inductive Alike : List Char → List Char → Prop where
  | refl (cs : List Char) : Alike cs cs
  | atSign {c : Char} (cs ds : List Char) : isServiceInitial c → Alike (c :: cs) ('@' :: ds)
  | shield {c : Char} (cs ds : List Char) : shields c → Alike (c :: cs) (c :: ds)
  | carriageReturn {cs ds : List Char} :
      startsWith (· == '\n') cs = false → startsWith (· == '\n') ds = false →
      Alike ('\r' :: cs) ('\r' :: ds)
  | cons (c : Char) {cs ds : List Char} : Alike cs ds → Alike (c :: cs) (c :: ds)

theorem Alike.append_left (front : List Char) {cs ds : List Char} (alike : Alike cs ds) :
    Alike (front ++ cs) (front ++ ds) := by
  induction front with
  | nil => exact alike
  | cons c front ih => exact ih.cons c

/-- Whether a condition holds of an at sign only if it holds of the letters that an at sign may
stand for. -/
def respectsSign (p : Char → Bool) : Bool := !p '@' || "pifcs".toList.all p

/-- What the second text starts with, the first starts with as well. -/
theorem startsWith_of_alike {cs ds : List Char} (alike : Alike cs ds) (p : Char → Bool)
    (sign : respectsSign p)
    (starts : startsWith p ds = true) : startsWith p cs = true := by
  cases alike with
  | refl => exact starts
  | atSign _ _ initial =>
    have atSign : p '@' = true := starts
    have letters : "pifcs".toList.all p = true := by simpa [respectsSign, atSign] using sign
    exact List.all_eq_true.mp letters _ (by simpa [isServiceInitial] using initial)
  | shield | carriageReturn | cons => exact starts

theorem startsWith_eq_false_of_alike {cs ds : List Char} (alike : Alike cs ds) (p : Char → Bool)
    (sign : respectsSign p)
    (stops : startsWith p cs = false) : startsWith p ds = false := by
  rw [Bool.eq_false_iff] at stops ⊢
  exact fun starts => stops (startsWith_of_alike alike p sign starts)

/-- A character of the second text that does not shield stands in the first as well, and behind it
the texts go on alike. -/
theorem Alike.of_open {c : Char} {cs ds : List Char} (open_ : shields c = false)
    (notReturn : c ≠ '\r') (alike : Alike cs (c :: ds)) : ∃ rest, cs = c :: rest ∧ Alike rest ds := by
  cases alike with
  | refl => exact ⟨ds, rfl, .refl ds⟩
  | atSign _ _ _ => exact absurd open_ (by decide)
  | shield _ _ shielded => simp [open_] at shielded
  | carriageReturn => exact absurd rfl notReturn
  | cons _ inner => exact ⟨_, rfl, inner⟩

/-! ## Counting rules -/

/-- A rule that counts the characters of a lexeme ends in front of texts that are alike at the same
place. -/
def Stable (count : List Char → Nat) : Prop :=
  ∀ front {cs ds : List Char}, Alike cs ds → count (front ++ cs) = front.length →
    count (front ++ ds) = front.length

/-- Two stable rules one behind the other are a stable rule. -/
theorem Stable.andThen {first second : List Char → Nat} (stableFirst : Stable first)
    (stableSecond : Stable second) :
    Stable fun cs => first cs + second (cs.drop (first cs)) := by
  intro front cs ds alike counted
  obtain ⟨head, tail, rfl, headLength⟩ :
      ∃ head tail, front = head ++ tail ∧ first (front ++ cs) = head.length := by
    refine ⟨front.take (first (front ++ cs)), front.drop (first (front ++ cs)), by simp, ?_⟩
    rw [List.length_take]
    simp only at counted
    omega
  rw [List.append_assoc] at headLength counted ⊢
  have sameHead := stableFirst head (alike.append_left tail) headLength
  simp only [headLength, sameHead, List.drop_left, List.length_append,
    Nat.add_left_cancel_iff] at counted ⊢
  exact stableSecond tail alike counted

@[simp] theorem countWhile_nil (p : Char → Bool) : countWhile p [] = 0 := rfl

theorem countWhile_cons (p : Char → Bool) (c : Char) (cs : List Char) :
    countWhile p (c :: cs) = if p c then 1 + countWhile p cs else 0 := by
  rw [countWhile, List.takeWhile_cons]
  split <;> simp [countWhile, Nat.add_comm]

theorem countWhile_eq_zero_iff (p : Char → Bool) (cs : List Char) :
    countWhile p cs = 0 ↔ startsWith p cs = false := by
  cases cs with
  | nil => simp [startsWith]
  | cons c cs =>
    rw [countWhile_cons, startsWith]
    cases p c with
    | false => simp
    | true => simp

theorem stable_countWhile (p : Char → Bool)
    (sign : respectsSign p) : Stable (countWhile p) := by
  intro front cs ds alike counted
  induction front with
  | nil =>
    simp only [List.nil_append, List.length_nil, countWhile_eq_zero_iff] at counted ⊢
    exact startsWith_eq_false_of_alike alike p sign counted
  | cons c front ih =>
    simp only [List.cons_append, countWhile_cons, List.length_cons] at counted ⊢
    split at counted
    · rename_i inside
      rw [if_pos inside, ih (by omega), Nat.add_comm]
    · omega

/-- The rule that takes one character if it satisfies a condition. -/
def countOne (p : Char → Bool) (cs : List Char) : Nat := if startsWith p cs then 1 else 0

theorem countOne_eq_zero_iff (p : Char → Bool) (cs : List Char) :
    countOne p cs = 0 ↔ startsWith p cs = false := by
  unfold countOne
  cases startsWith p cs <;> simp

theorem stable_countOne (p : Char → Bool)
    (sign : respectsSign p) : Stable (countOne p) := by
  intro front cs ds alike counted
  cases front with
  | nil =>
    simp only [List.nil_append, List.length_nil, countOne_eq_zero_iff] at counted ⊢
    exact startsWith_eq_false_of_alike alike p sign counted
  | cons c front => exact counted

/-! ## Numbers -/

theorem fractionLength_cons (c : Char) (cs : List Char) :
    fractionLength (c :: cs) =
      if c = '.' ∧ startsWith Char.isDigit cs then 1 + countWhile Char.isDigit cs else 0 := by
  by_cases point : c = '.'
  · subst point
    simp [fractionLength]
  · rw [fractionLength, if_neg (fun both => point both.1)]
    intro rest same
    exact point (List.cons.inj same).1

theorem stable_fractionLength : Stable fractionLength := by
  intro front cs ds alike counted
  cases front with
  | nil =>
    simp only [List.nil_append, List.length_nil] at counted ⊢
    cases ds with
    | nil => rfl
    | cons d ds =>
      rw [fractionLength_cons, if_neg]
      rintro ⟨rfl, digit⟩
      obtain ⟨rest, rfl, behind⟩ := alike.of_open (by decide) (by decide)
      have sameDigit := startsWith_of_alike behind Char.isDigit (by decide) digit
      rw [fractionLength_cons, if_pos ⟨rfl, sameDigit⟩] at counted
      omega
  | cons c front =>
    simp only [List.cons_append, fractionLength_cons, List.length_cons] at counted ⊢
    split at counted
    · rename_i point
      have digits := stable_countWhile Char.isDigit (by decide) front alike (by omega)
      have starts : startsWith Char.isDigit (front ++ ds) = true := by
        cases front with
        | nil =>
          have none := (countWhile_eq_zero_iff Char.isDigit cs).mp (by simpa using counted)
          simp [none] at point
        | cons d front => exact point.2
      rw [if_pos ⟨point.1, starts⟩, digits, Nat.add_comm]
    · omega

theorem exponentLength_cons (c : Char) (cs : List Char) :
    exponentLength (c :: cs) =
      if c = 'e' ∨ c = 'E' then
        1 + (countOne (fun c => c == '+' || c == '-') cs +
          countWhile Char.isDigit (cs.drop (countOne (fun c => c == '+' || c == '-') cs)))
      else 0 := by
  simp only [exponentLength, countOne, Bool.or_eq_true, decide_eq_true_eq, Nat.add_assoc]

theorem stable_exponentLength : Stable exponentLength := by
  intro front cs ds alike counted
  have digits : Stable fun cs => countOne (fun c => c == '+' || c == '-') cs +
      countWhile Char.isDigit (cs.drop (countOne (fun c => c == '+' || c == '-') cs)) :=
    (stable_countOne _ (by decide)).andThen (stable_countWhile _ (by decide))
  cases front with
  | nil =>
    simp only [List.nil_append, List.length_nil] at counted ⊢
    cases ds with
    | nil => rfl
    | cons d ds =>
      rw [exponentLength_cons, if_neg]
      intro letter
      have same := startsWith_of_alike alike (fun c => c == 'e' || c == 'E') (by decide)
        (by simpa [startsWith] using letter)
      cases cs with
      | nil => simp [startsWith] at same
      | cons c cs =>
        rw [exponentLength_cons, if_pos (by simpa [startsWith] using same)] at counted
        omega
  | cons c front =>
    simp only [List.cons_append, exponentLength_cons, List.length_cons] at counted ⊢
    split at counted
    · rename_i letter
      have behind := digits front alike (by simp only; omega)
      simp only at behind
      rw [if_pos letter, behind, Nat.add_comm]
    · omega

/-- Digits, a fraction, an exponent and a suffix. -/
def decimalLength (cs : List Char) : Nat :=
  let whole := countWhile Char.isDigit cs
  let fraction := whole + fractionLength (cs.drop whole)
  let exponent := fraction + exponentLength (cs.drop fraction)
  exponent + suffixLength (cs.drop exponent)

theorem stable_decimalLength : Stable decimalLength :=
  (((stable_countWhile Char.isDigit (by decide)).andThen stable_fractionLength).andThen
    stable_exponentLength).andThen (stable_countOne _ (by decide))

theorem numberTail_eq (first : Char) (cs : List Char) :
    numberTail first cs =
      if first = '0' ∧ startsWith (fun c => c == 'x' || c == 'X') cs then
        1 + countWhile isHexDigit (cs.drop 1)
      else decimalLength cs := by
  simp [numberTail, decimalLength]

theorem stable_numberTail (first : Char) : Stable (numberTail first) := by
  intro front cs ds alike counted
  rw [numberTail_eq] at counted ⊢
  cases front with
  | nil =>
    simp only [List.nil_append, List.length_nil] at counted ⊢
    split at counted
    · omega
    · rename_i notHex
      rw [if_neg]
      · exact stable_decimalLength [] alike counted
      · rintro ⟨zero, letter⟩
        exact notHex ⟨zero, startsWith_of_alike alike _ (by decide) letter⟩
  | cons c front =>
    split at counted
    · rename_i hex
      rw [if_pos (by simpa [startsWith] using hex)]
      simp only [List.cons_append, List.drop_succ_cons, List.drop_zero, List.length_cons]
        at counted ⊢
      rw [stable_countWhile isHexDigit (by decide) front alike (by omega), Nat.add_comm]
    · rename_i notHex
      rw [if_neg (by simpa [startsWith] using notHex)]
      exact stable_decimalLength (c :: front) alike counted

/-! ## Identifiers -/

theorem identifierTail_cons (c : Char) (cs : List Char) :
    identifierTail (c :: cs) =
      if c = '\\' ∧ startsWith isEscapable cs then 2 + identifierTail (cs.drop 1)
      else if isIdentifierPart c then 1 + identifierTail cs
      else 0 := by
  cases cs with
  | nil => simp [identifierTail, startsWith]
  | cons d cs => simp [identifierTail, startsWith]

/-- An identifier goes on with one of its characters or with an escape. -/
theorem identifierTail_eq_zero_iff (cs : List Char) :
    identifierTail cs = 0 ↔
      startsWith isIdentifierPart cs = false ∧
        ∀ ds, cs = '\\' :: ds → startsWith isEscapable ds = false := by
  cases cs with
  | nil => simp [identifierTail, startsWith]
  | cons c cs =>
    rw [identifierTail_cons]
    by_cases escape : c = '\\' ∧ startsWith isEscapable cs
    · obtain ⟨rfl, escaped⟩ := escape
      simp [escaped]
    · rw [if_neg escape]
      cases part : isIdentifierPart c
      · simp only [Bool.false_eq_true, ↓reduceIte, startsWith, part, List.cons.injEq, true_and,
          true_iff]
        rintro ds ⟨rfl, rfl⟩
        change startsWith isEscapable cs = false
        simpa using escape
      · simp [startsWith, part]

/-- Characters of an identifier belong to it. -/
theorem identifierTail_of_all {front cs : List Char} (parts : front.all isIdentifierPart = true)
    (stops : identifierTail cs = 0) : identifierTail (front ++ cs) = front.length := by
  induction front with
  | nil => exact stops
  | cons c front ih =>
    rw [List.all_cons, Bool.and_eq_true] at parts
    have notEscape : ¬(c = '\\' ∧ startsWith isEscapable (front ++ cs) = true) := by
      rintro ⟨rfl, _⟩
      exact absurd parts.1 (by decide)
    rw [List.cons_append, identifierTail_cons, if_neg notEscape, if_pos parts.1, ih parts.2,
      List.length_cons, Nat.add_comm]

theorem identifierTail_eq_zero_of_alike {cs ds : List Char} (alike : Alike cs ds)
    (stops : identifierTail cs = 0) : identifierTail ds = 0 := by
  rw [identifierTail_eq_zero_iff] at stops ⊢
  constructor
  · exact startsWith_eq_false_of_alike alike _ (by decide) stops.1
  · rintro rest rfl
    obtain ⟨cs, rfl, behind⟩ := alike.of_open (by decide) (by decide)
    exact startsWith_eq_false_of_alike behind isEscapable (by decide) (stops.2 cs rfl)

/-- An identifier that ends in front of a text ends in front of every other text that cannot
continue one. -/
theorem identifierTail_append (front cs : List Char)
    (counted : identifierTail (front ++ cs) = front.length) :
    identifierTail cs = 0 ∧
      ∀ ds, identifierTail ds = 0 → identifierTail (front ++ ds) = front.length := by
  match front with
  | [] => exact ⟨counted, fun ds stops => stops⟩
  | c :: front =>
    simp only [List.cons_append, identifierTail_cons, List.length_cons] at counted ⊢
    split at counted
    · rename_i escape
      cases front with
      | nil =>
        simp only [List.length_nil] at counted
        omega
      | cons d front =>
        simp only [List.cons_append, List.drop_succ_cons, List.drop_zero, List.length_cons]
          at counted ⊢
        obtain ⟨stops, further⟩ := identifierTail_append front cs (by omega)
        refine ⟨stops, fun ds none => ?_⟩
        rw [if_pos (by simpa [startsWith] using escape), further ds none]
        omega
    · split at counted
      · rename_i part
        have notEscape (ds : List Char) :
            ¬(c = '\\' ∧ startsWith isEscapable (front ++ ds) = true) := by
          rintro ⟨rfl, _⟩
          exact absurd part (by decide)
        obtain ⟨stops, further⟩ := identifierTail_append front cs (by omega)
        refine ⟨stops, fun ds none => ?_⟩
        rw [if_neg (notEscape ds), if_pos part, further ds none, Nat.add_comm]
      · omega
termination_by front.length

theorem stable_identifierTail : Stable identifierTail := by
  intro front cs ds alike counted
  obtain ⟨stops, further⟩ := identifierTail_append _ _ counted
  exact further ds (identifierTail_eq_zero_of_alike alike stops)

/-! ## Literals -/

/-- A rule that gives the kind of a lexeme as well ends in front of texts that are alike with the
same kind at the same place. -/
def StableKind (rule : List Char → Kind × Nat) : Prop :=
  ∀ front {cs ds : List Char} {kind : Kind}, Alike cs ds →
    rule (front ++ cs) = (kind, front.length) → rule (front ++ ds) = (kind, front.length)

theorem stringTail_cons (c : Char) (cs : List Char) :
    stringTail (c :: cs) =
      if c = '"' then (.stringLiteral, 1)
      else if c = '\\' then
        if startsWith (!isLineBreak ·) cs then
          ((stringTail (cs.drop 1)).1, 2 + (stringTail (cs.drop 1)).2)
        else (.unknown, 1)
      else if isLineBreak c then (.unknown, 0)
      else ((stringTail cs).1, 1 + (stringTail cs).2) := by
  by_cases quote : c = '"'
  · subst quote
    simp [stringTail]
  · by_cases backslash : c = '\\'
    · subst backslash
      cases cs with
      | nil => simp [stringTail, startsWith]
      | cons d cs => cases broken : isLineBreak d <;> simp [stringTail, startsWith, broken]
    · rw [stringTail]
      · simp [quote, backslash]
      all_goals simp_all

/-- A string literal that its line does not close ends at the end of the line. -/
theorem stringTail_eq_zero_iff (cs : List Char) (kind : Kind) :
    stringTail cs = (kind, 0) ↔ kind = .unknown ∧ startsWith (!isLineBreak ·) cs = false := by
  cases cs with
  | nil => simp [stringTail, startsWith, eq_comm]
  | cons c cs =>
    rw [stringTail_cons, startsWith]
    by_cases quote : c = '"'
    · subst quote
      simp only [↓reduceIte, Prod.mk.injEq, Nat.one_ne_zero, and_false, false_iff, not_and]
      intro _
      decide
    · by_cases backslash : c = '\\'
      · subst backslash
        have inLine : isLineBreak '\\' = false := by decide
        cases startsWith (!isLineBreak ·) cs <;> simp [inLine]
      · cases broken : isLineBreak c
        · simp [quote, backslash]
        · simp [quote, backslash, eq_comm]

theorem stable_stringTail : StableKind stringTail := by
  intro front cs ds kind alike counted
  cases front with
  | nil =>
    simp only [List.nil_append, List.length_nil, stringTail_eq_zero_iff] at counted ⊢
    exact ⟨counted.1, startsWith_eq_false_of_alike alike _ (by decide) counted.2⟩
  | cons c front =>
    simp only [List.cons_append, stringTail_cons, List.length_cons] at counted ⊢
    by_cases quote : c = '"'
    · rw [if_pos quote] at counted ⊢
      exact counted
    · rw [if_neg quote] at counted ⊢
      by_cases backslash : c = '\\'
      · rw [if_pos backslash] at counted ⊢
        cases front with
        | nil =>
          simp only [List.nil_append, List.length_nil] at counted ⊢
          split at counted
          · simp only [Prod.mk.injEq] at counted
            omega
          · rename_i broken
            rw [Bool.not_eq_true] at broken
            rw [startsWith_eq_false_of_alike alike _ (by decide) broken]
            exact counted
        | cons d front =>
          simp only [List.cons_append, startsWith, List.drop_succ_cons, List.drop_zero,
            List.length_cons] at counted ⊢
          split at counted
          · rename_i inLine
            simp only [Prod.mk.injEq] at counted
            have inner := stable_stringTail front alike
              (Prod.ext counted.1 (by simp only; omega))
            rw [if_pos inLine, inner]
            simp only [Prod.mk.injEq, true_and]
            omega
          · simp only [Prod.mk.injEq] at counted
            omega
      · rw [if_neg backslash] at counted ⊢
        split at counted
        · simp at counted
        · rename_i inLine
          simp only [Prod.mk.injEq] at counted
          have inner := stable_stringTail front alike (Prod.ext counted.1 (by simp only; omega))
          rw [if_neg inLine, inner, Nat.add_comm]
termination_by front => front.length

theorem length_countWhile_le (p : Char → Bool) (cs : List Char) :
    countWhile p cs ≤ cs.length :=
  (List.takeWhile_prefix p).length_le

theorem eq_nil_of_alike_nil {ds : List Char} (alike : Alike [] ds) : ds = [] := by
  cases alike
  rfl

theorem stable_templateTail : StableKind templateTail := by
  intro front cs ds kind alike counted
  have inside := stable_countWhile (· != '\x60') (by decide)
  simp only [templateTail] at counted ⊢
  split at counted
  · rename_i closed
    simp only [Prod.mk.injEq] at counted
    obtain ⟨rfl, counted⟩ := counted
    obtain ⟨body, last, rfl⟩ : ∃ body last, front = body ++ [last] := by
      refine ⟨front.dropLast, front.getLast ?_, (List.dropLast_concat_getLast _).symm⟩
      intro nothing
      simp [nothing] at counted
    simp only [List.length_append, List.length_singleton, Nat.add_right_cancel_iff,
      List.append_assoc, List.singleton_append] at counted ⊢
    rw [inside body (alike.cons last) counted, if_pos (by simp)]
  · rename_i unclosed
    simp only [Prod.mk.injEq] at counted
    have bound := length_countWhile_le (· != '\x60') (front ++ cs)
    have nothing : cs = [] := by
      rw [List.length_append] at unclosed bound
      exact List.eq_nil_of_length_eq_zero (by omega)
    subst nothing
    obtain rfl := eq_nil_of_alike_nil alike
    rw [if_neg unclosed]
    exact Prod.ext counted.1 counted.2

/-! ## Lexemes -/

theorem fst_stringTail (cs : List Char) :
    (stringTail cs).1 = .stringLiteral ∨ (stringTail cs).1 = .unknown := by
  fun_induction stringTail cs <;> simp_all

theorem fst_templateTail (cs : List Char) :
    (templateTail cs).1 = .templateLiteral ∨ (templateTail cs).1 = .unknown := by
  rw [templateTail]
  split <;> simp

/-- A lexeme of a class without a character of its own. -/
theorem lexemeTail_of_word {c : Char} (cs : List Char)
    (plain : "@:;,()\x7b\x7d[]?/.\"\x60#'\\".toList.contains c = false) :
    lexemeTail c cs =
      if c = '=' && !startsWith (fun c => c == '=' || c == '>') cs then (.equals, 0)
      else if c.isDigit then (.numericLiteral, numberTail c cs)
      else if isIdentifierStart c then
        (wordKind (c :: cs.take (identifierTail cs)), identifierTail cs)
      else if isOperator c then (.operator, countWhile isOperator cs)
      else (.unknown, 0) := by
  unfold lexemeTail
  split
  all_goals first | rfl | simp at plain

/-- Marks of one character, each of them the only lexeme of its kind. -/
def punctuation : List (Char × Kind) :=
  [('@', .atSign), (':', .colon), (';', .semicolon), (',', .comma), ('(', .leftParen),
    (')', .rightParen), ('\x7b', .leftBrace), ('\x7d', .rightBrace), ('[', .leftBracket),
    (']', .rightBracket), ('?', .question), ('/', .slash)]

/-- A mark is a lexeme of its own, whatever follows it. -/
theorem lexemeTail_of_mem_punctuation {c : Char} {kind : Kind} (isMark : (c, kind) ∈ punctuation)
    (cs : List Char) : lexemeTail c cs = (kind, 0) := by
  have each : ∀ entry ∈ punctuation, lexemeTail entry.1 cs = (entry.2, 0) := by
    simp only [punctuation, List.forall_mem_cons]
    exact ⟨rfl, rfl, rfl, rfl, rfl, rfl, rfl, rfl, rfl, rfl, rfl, rfl, List.forall_mem_nil _⟩
  exact each _ isMark

/-- The classes of lexemes, told by their first characters. -/
inductive LexemeClass : Char → Prop where
  | mark {c : Char} {kind : Kind} (isMark : (c, kind) ∈ punctuation) : LexemeClass c
  | point : LexemeClass '.'
  | string : LexemeClass '"'
  | template : LexemeClass '\x60'
  | line : LexemeClass '#'
  | quoted : LexemeClass '\''
  | escaped : LexemeClass '\\'
  | word {c : Char} (plain : "@:;,()\x7b\x7d[]?/.\"\x60#'\\".toList.contains c = false) :
    LexemeClass c

theorem lexemeClass (c : Char) : LexemeClass c := by
  by_cases plain : "@:;,()\x7b\x7d[]?/.\"\x60#'\\".toList.contains c = false
  · exact .word plain
  · have others : ("@:;,()\x7b\x7d[]?/.\"\x60#'\\".toList.all fun d =>
        (punctuation.map Prod.fst).contains d ||
          ['.', '"', '\x60', '#', '\'', '\\'].contains d) = true := by
      decide
    rw [Bool.not_eq_false, List.contains_iff_mem] at plain
    have known := List.all_eq_true.mp others c plain
    rw [Bool.or_eq_true, List.contains_iff_mem, List.contains_iff_mem] at known
    rcases known with isMark | other
    · obtain ⟨entry, inside, rfl⟩ := List.mem_map.mp isMark
      exact .mark inside
    · simp only [List.mem_cons, List.not_mem_nil, or_false] at other
      rcases other with rfl | rfl | rfl | rfl | rfl | rfl
      · exact .point
      · exact .string
      · exact .template
      · exact .line
      · exact .quoted
      · exact .escaped

/-- An operator that begins with an equals sign takes another character that it may consist of. -/
theorem startsWith_operator_of_equals {cs : List Char}
    (follows : startsWith (fun c => c == '=' || c == '>') cs = true) :
    startsWith isOperator cs = true := by
  cases cs with
  | nil => simp [startsWith] at follows
  | cons d cs =>
    simp only [startsWith, Bool.or_eq_true, beq_iff_eq] at follows ⊢
    rcases follows with rfl | rfl <;> decide

/-- An equals sign stands alone, unless it begins an operator. -/
theorem lexemeTail_equals (cs : List Char) :
    lexemeTail '=' cs =
      if startsWith (fun c => c == '=' || c == '>') cs then (.operator, countWhile isOperator cs)
      else (.equals, 0) := by
  have digit : '='.isDigit = false := by decide
  have start : isIdentifierStart '=' = false := by decide
  have operator : isOperator '=' = true := by decide
  rw [lexemeTail_of_word cs (by decide), digit, start, operator]
  cases startsWith (fun c => c == '=' || c == '>') cs <;> rfl

/-- No identifier starts with a digit. -/
theorem isDigit_of_isIdentifierStart {c : Char} (start : isIdentifierStart c) :
    c.isDigit = false := by
  rw [Bool.eq_false_iff]
  intro digit
  have none : ∀ code < 58, (Char.ofNat code).isDigit = true →
      isIdentifierStart (Char.ofNat code) = false := by
    decide +kernel
  have below : c.toNat < 58 := by
    have bounds := Bool.and_eq_true_iff.mp digit
    exact Nat.lt_succ_of_le (UInt32.le_iff_toNat_le.mp (of_decide_eq_true bounds.2))
  have noStart := none c.toNat below
  rw [Char.ofNat_toNat, start] at noStart
  cases noStart digit

/-- A word that starts like an identifier goes on like one. -/
theorem lexemeTail_of_isIdentifierStart {c : Char} (start : isIdentifierStart c) (cs : List Char) :
    lexemeTail c cs = (wordKind (c :: cs.take (identifierTail cs)), identifierTail cs) := by
  have plain : "@:;,()\x7b\x7d[]?/.\"\x60#'\\".toList.contains c = false := by
    rw [Bool.eq_false_iff, ne_eq, List.contains_iff_mem]
    intro special
    have none : "@:;,()\x7b\x7d[]?/.\"\x60#'\\".toList.all (!isIdentifierStart ·) = true := by
      decide
    simpa [start] using List.all_eq_true.mp none c special
  have notEquals : c ≠ '=' := by
    rintro rfl
    exact absurd start (by decide)
  rw [lexemeTail_of_word cs plain]
  simp [notEquals, isDigit_of_isIdentifierStart start, start]

/-- The classes of lexemes without a character of their own, each with what a lexeme of it takes. -/
inductive WordClass : Char → Prop where
  | equals : WordClass '='
  | number {c : Char} (taken : ∀ cs, lexemeTail c cs = (.numericLiteral, numberTail c cs)) :
    WordClass c
  | name {c : Char} (start : isIdentifierStart c = true)
      (taken : ∀ cs, lexemeTail c cs =
        (wordKind (c :: cs.take (identifierTail cs)), identifierTail cs)) :
    WordClass c
  | operator {c : Char} (taken : ∀ cs, lexemeTail c cs = (.operator, countWhile isOperator cs)) :
    WordClass c
  | unknown {c : Char} (taken : ∀ cs, lexemeTail c cs = (.unknown, 0)) : WordClass c

theorem wordClass {c : Char}
    (plain : "@:;,()\x7b\x7d[]?/.\"\x60#'\\".toList.contains c = false) : WordClass c := by
  by_cases equals : c = '='
  · subst equals
    exact .equals
  · have taken (cs : List Char) := lexemeTail_of_word cs plain
    simp only [equals, decide_false, Bool.false_and, Bool.false_eq_true, ↓reduceIte] at taken
    cases digit : c.isDigit
    · cases start : isIdentifierStart c
      · cases operator : isOperator c
        · exact .unknown fun cs => by simp [taken, digit, start, operator]
        · exact .operator fun cs => by simp [taken, digit, start, operator]
      · exact .name start (lexemeTail_of_isIdentifierStart start)
    · exact .number fun cs => by simp [taken, digit]

/-- A point begins an ellipsis only where two more points follow. -/
theorem take_two_ne_of_alike {cs ds : List Char} (alike : Alike cs ds)
    (differs : cs.take 2 ≠ ['.', '.']) : ds.take 2 ≠ ['.', '.'] := by
  intro points
  match ds, points with
  | d :: e :: ds, points =>
    simp only [List.take_succ_cons, List.take_zero, List.cons.injEq, and_true] at points
    obtain ⟨rfl, rfl⟩ := points
    obtain ⟨cs, rfl, behind⟩ := alike.of_open (by decide) (by decide)
    obtain ⟨cs, rfl, _⟩ := behind.of_open (by decide) (by decide)
    exact differs rfl

/-- What may follow the mark of a quoted identifier. -/
def followsQuote (c : Char) : Bool := isIdentifierStart c || c == '\\'

theorem lexemeTail_point (cs : List Char) :
    lexemeTail '.' cs = if cs.take 2 = ['.', '.'] then (.ellipsis, 2) else (.dot, 0) := rfl

theorem lexemeTail_quoted (cs : List Char) :
    lexemeTail '\'' cs =
      if startsWith followsQuote cs then (.identifier, identifierTail cs) else (.unknown, 0) := rfl

theorem lexemeTail_escaped (cs : List Char) :
    lexemeTail '\\' cs =
      if startsWith isEscapable cs then (.identifier, 1 + identifierTail (cs.drop 1))
      else (.unknown, 0) := rfl

theorem isIdentifierPart_of_start {c : Char} (start : isIdentifierStart c) :
    isIdentifierPart c = true := by
  simp only [isIdentifierStart, isIdentifierPart, Bool.or_eq_true] at start ⊢
  exact .inl start

/-- A quoted identifier without any character ends in front of a backslash that escapes nothing. -/
theorem startsWith_followsQuote {cs ds : List Char} (alike : Alike cs ds)
    (follows : startsWith followsQuote cs = true) (ends : identifierTail cs = 0) :
    startsWith followsQuote ds = true := by
  have noPart := ((identifierTail_eq_zero_iff cs).mp ends).1
  cases cs with
  | nil => simp [startsWith] at follows
  | cons c cs =>
    simp only [startsWith] at follows noPart
    have backslash : c = '\\' := by
      rw [followsQuote, Bool.or_eq_true, beq_iff_eq] at follows
      rcases follows with start | same
      · simp [isIdentifierPart_of_start start] at noPart
      · exact same
    subst backslash
    cases alike with
    | refl => exact follows
    | atSign _ _ initial => exact absurd initial (by decide)
    | shield | cons => exact follows

/-- A rule that takes a lexeme of one kind where the text starts with a certain character, and none
of another kind where it does not. -/
theorem stableKind_ite {p : Char → Bool} (sign : respectsSign p) {count : List Char → Nat}
    (stable : Stable count)
    (starts : ∀ {cs ds}, Alike cs ds → startsWith p cs = true → count cs = 0 →
      startsWith p ds = true) (taken left : Kind) :
    StableKind fun cs => if startsWith p cs then (taken, count cs) else (left, 0) := by
  intro front cs ds kind alike counted
  dsimp only at counted ⊢
  split at counted
  · rename_i follows
    obtain ⟨rfl, ends⟩ := Prod.mk.inj counted
    have same : startsWith p (front ++ ds) = true := by
      cases front with
      | nil => exact starts alike follows ends
      | cons d front => exact follows
    rw [if_pos same, stable front alike ends]
  · rename_i stops
    obtain ⟨rfl, none⟩ := Prod.mk.inj counted
    obtain rfl := List.eq_nil_of_length_eq_zero none.symm
    rw [Bool.not_eq_true] at stops
    have same := startsWith_eq_false_of_alike alike p sign stops
    simp [same]

theorem stable_points :
    StableKind fun cs => if cs.take 2 = ['.', '.'] then (.ellipsis, 2) else (.dot, 0) := by
  intro front cs ds kind alike counted
  dsimp only at counted ⊢
  split at counted
  · rename_i points
    obtain ⟨rfl, two⟩ := Prod.mk.inj counted
    rw [List.take_append_of_le_length (by omega)] at points
    rw [List.take_append_of_le_length (by omega), if_pos points, two]
  · rename_i differs
    obtain ⟨rfl, none⟩ := Prod.mk.inj counted
    obtain rfl := List.eq_nil_of_length_eq_zero none.symm
    exact if_neg (take_two_ne_of_alike alike differs)

/-- An identifier behind a quote that marks it. -/
theorem stable_quotedTail : StableKind (lexemeTail '\'') :=
  stableKind_ite (by decide) stable_identifierTail startsWith_followsQuote .identifier .unknown

/-- An identifier whose first character is escaped. -/
theorem stable_escapedTail : StableKind (lexemeTail '\\') := by
  have stable : Stable fun cs => 1 + identifierTail (cs.drop 1) := by
    intro front cs ds alike counted
    cases front with
    | nil =>
      simp only [List.length_nil] at counted
      omega
    | cons d front =>
      simp only [List.cons_append, List.drop_succ_cons, List.drop_zero, List.length_cons]
        at counted ⊢
      rw [stable_identifierTail front alike (by omega), Nat.add_comm]
  exact stableKind_ite (by decide) stable (fun _ _ none => by omega) .identifier .unknown

/-- An operator that begins with an equals sign. -/
theorem stable_equalsTail : StableKind (lexemeTail '=') := by
  intro front cs ds kind alike counted
  rw [lexemeTail_equals] at counted ⊢
  refine stableKind_ite (by decide) (stable_countWhile isOperator (by decide)) ?_ .operator .equals
    front alike counted
  intro cs ds _ follows none
  rw [countWhile_eq_zero_iff, startsWith_operator_of_equals follows] at none
  cases none

/-- A lexeme of a class without a character of its own. -/
theorem stable_wordTail {c : Char}
    (plain : "@:;,()\x7b\x7d[]?/.\"\x60#'\\".toList.contains c = false) :
    StableKind (lexemeTail c) := by
  intro front cs ds kind alike counted
  cases wordClass plain with
  | equals => exact stable_equalsTail front alike counted
  | number taken =>
    rw [taken] at counted ⊢
    obtain ⟨rfl, ends⟩ := Prod.mk.inj counted
    rw [stable_numberTail c front alike ends]
  | name start taken =>
    rw [taken] at counted ⊢
    obtain ⟨rfl, ends⟩ := Prod.mk.inj counted
    rw [ends, stable_identifierTail front alike ends, List.take_left, List.take_left]
  | operator taken =>
    rw [taken] at counted ⊢
    obtain ⟨rfl, ends⟩ := Prod.mk.inj counted
    rw [stable_countWhile _ (by decide) front alike ends]
  | unknown taken =>
    rw [taken] at counted ⊢
    exact counted

/-- A lexeme ends in front of texts that are alike with the same kind at the same place. -/
theorem stable_lexemeTail (c : Char) : StableKind (lexemeTail c) := by
  intro front cs ds kind alike counted
  cases lexemeClass c with
  | mark isMark =>
    rw [lexemeTail_of_mem_punctuation isMark] at counted ⊢
    exact counted
  | point => exact stable_points front alike counted
  | string => exact stable_stringTail front alike counted
  | template => exact stable_templateTail front alike counted
  | line =>
    obtain ⟨rfl, ends⟩ := Prod.mk.inj counted
    exact Prod.ext rfl (stable_countWhile _ (by decide) front alike ends)
  | quoted => exact stable_quotedTail front alike counted
  | escaped => exact stable_escapedTail front alike counted
  | word plain => exact stable_wordTail plain front alike counted

end ServiceAnnotator.Scan
