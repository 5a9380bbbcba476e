import ServiceAnnotator.Proofs.Scan.Keyword
import ServiceAnnotator.Proofs.Scan.Transfer
import ServiceAnnotator.Proofs.Tree.Leaves

/-!
# Names that move in front of a brace

The type of a service is a name, with a module in front of a colon or without. Its tokens are read
as they are where the name is followed by a closing brace, with one exception: a quotation mark
alone is an identifier only in front of a backslash.
-/

namespace ServiceAnnotator

namespace Scan

/-! ## Texts with the same beginning -/

theorem startsWith_append_cons (p : Char → Bool) (front : List Char) (c : Char)
    (cs ds : List Char) : startsWith p (front ++ c :: cs) = startsWith p (front ++ c :: ds) := by
  cases front with
  | nil => rfl
  | cons d front => rfl

theorem piece?_eq_none_of_head {front : List Char} {c : Char} {cs : List Char} (noSlash : c ≠ '/')
    (nothing : piece? (front ++ c :: cs) = none) (ds : List Char) :
    piece? (front ++ c :: ds) = none := by
  cases front with
  | nil =>
    rw [List.nil_append, piece?_cons_eq_none_iff] at nothing ⊢
    exact ⟨nothing.1, nothing.2.1, nothing.2.2.1, fun slash => absurd slash noSlash⟩
  | cons d front =>
    rw [List.cons_append, piece?_cons_eq_none_iff] at nothing ⊢
    refine ⟨nothing.1, nothing.2.1, nothing.2.2.1, fun slash => ?_⟩
    rw [startsWith_append_cons _ _ _ _ cs]
    exact nothing.2.2.2 slash

end Scan

theorem Piece.Ends.of_head {piece : Piece} {front : List Char} {c : Char} {cs : List Char}
    (ends : piece.Ends (front ++ c :: cs)) (ds : List Char) : piece.Ends (front ++ c :: ds) := by
  obtain ⟨kind, text⟩ := piece
  cases kind with
  | whitespace => exact (Scan.startsWith_append_cons _ _ _ _ cs).trans ends
  | newline =>
    intro carriage
    exact (Scan.startsWith_append_cons _ _ _ _ cs).trans (ends carriage)
  | lineComment => exact (Scan.startsWith_append_cons _ _ _ _ cs).trans ends

namespace Trivia

theorem Leads.of_head {pieces : Trivia} (front : List Char) {c : Char} {cs : List Char}
    (noSlash : c ≠ '/') (leads : pieces.Leads (front ++ c :: cs)) (ds : List Char) :
    pieces.Leads (front ++ c :: ds) := by
  induction pieces with
  | nil => exact Scan.piece?_eq_none_of_head noSlash leads ds
  | cons piece pieces ih =>
    obtain ⟨valid, ends, behind⟩ := leads
    rw [← List.append_assoc] at ends
    refine ⟨valid, ?_, ih behind⟩
    rw [← List.append_assoc]
    exact ends.of_head ds

theorem Trails.of_head {pieces : Trivia} {front : List Char} {c : Char} {cs : List Char}
    (noSlash : c ≠ '/') (trails : pieces.Trails (front ++ c :: cs)) (ds : List Char) :
    pieces.Trails (front ++ c :: ds) := by
  induction pieces with
  | nil => exact Scan.piece?_eq_none_of_head noSlash trails ds
  | cons piece pieces ih =>
    obtain ⟨valid, ends, behind⟩ := trails
    rw [← List.append_assoc] at ends
    refine ⟨valid, ?_, ?_⟩
    · rw [← List.append_assoc]
      exact ends.of_head ds
    · split
      · rename_i newline
        rwa [if_pos newline] at behind
      · rename_i inLine
        rw [if_neg inLine] at behind
        exact ih behind

end Trivia

/-- No piece of trivia starts with a backslash. -/
theorem Piece.startsWith_backslash {piece : Piece} (valid : piece.Valid) (after : List Char) :
    Scan.startsWith (· == '\\') (piece.text ++ after) = false := by
  obtain ⟨kind, text⟩ := piece
  cases kind with
  | whitespace =>
    obtain ⟨some, blank⟩ := valid
    cases text with
    | nil => simp at some
    | cons c run =>
      have first := blank c (by simp)
      have different : c ≠ '\\' := by
        rintro rfl
        exact absurd first (by decide)
      simpa [Scan.startsWith] using different
  | newline => rcases valid with rfl | rfl | rfl <;> rfl
  | lineComment =>
    obtain ⟨run, rfl, _⟩ := valid
    rfl

namespace Trivia

theorem Leads.startsWith_backslash {pieces : Trivia} {after : List Char}
    (leads : pieces.Leads after) (none : Scan.startsWith (· == '\\') after = false) :
    Scan.startsWith (· == '\\') (pieces.text ++ after) = false := by
  cases pieces with
  | nil => exact none
  | cons piece pieces =>
    rw [text_cons, List.append_assoc]
    exact Piece.startsWith_backslash leads.1 _

theorem Trails.startsWith_backslash {pieces : Trivia} {after : List Char}
    (trails : pieces.Trails after) (none : Scan.startsWith (· == '\\') after = false) :
    Scan.startsWith (· == '\\') (pieces.text ++ after) = false := by
  cases pieces with
  | nil => exact none
  | cons piece pieces =>
    rw [text_cons, List.append_assoc]
    exact Piece.startsWith_backslash trails.1 _

end Trivia

namespace Scan

/-! ## Punctuation -/

/-- Nothing but a mark is of the kind of a mark. -/
theorem lexemeTail_of_punctuation {c : Char} {cs : List Char}
    (isMark : (lexemeTail c cs).1 ∈ punctuation.map Prod.snd) :
    (c, (lexemeTail c cs).1) ∈ punctuation ∧ (lexemeTail c cs).2 = 0 := by
  rcases fst_lexemeTail_cases c cs with alone | other | word
  · exact alone
  · have noMark : ∀ kind ∈ otherKinds, kind ∉ punctuation.map Prod.snd := by decide
    exact absurd isMark (noMark _ other)
  · have noKeyword : ∀ kind ∈ punctuation.map Prod.snd, ∀ entry ∈ Kind.keywords, entry.2 ≠ kind := by
      decide
    have noIdentifier := ne_of_mem_of_not_mem isMark (b := .identifier) (by decide)
    exact absurd word.symm (wordKind_ne noIdentifier (noKeyword _ isMark) _)

/-! ## Identifiers -/

/-- The three forms of an identifier. -/
theorem lexemeTail_eq_identifier {c : Char} {cs : List Char} {length : Nat}
    (counted : lexemeTail c cs = (.identifier, length)) :
    (c = '\'' ∧ startsWith followsQuote cs = true ∧ identifierTail cs = length) ∨
      (c = '\\' ∧ startsWith isEscapable cs = true ∧ 1 + identifierTail (cs.drop 1) = length) ∨
      (isIdentifierStart c = true ∧ identifierTail cs = length ∧
        wordKind (c :: cs.take length) = .identifier) := by
  have kindEq : (lexemeTail c cs).1 = .identifier := congrArg Prod.fst counted
  cases lexemeClass c with
  | mark isMark =>
    have none : ∀ entry ∈ punctuation, entry.2 ≠ .identifier := by decide
    rw [lexemeTail_of_mem_punctuation isMark] at kindEq
    exact absurd kindEq (none _ isMark)
  | point =>
    rw [lexemeTail_point] at counted
    split at counted <;> cases counted
  | string =>
    change (stringTail cs).1 = .identifier at kindEq
    rcases fst_stringTail cs with same | same <;> rw [same] at kindEq <;> cases kindEq
  | template =>
    change (templateTail cs).1 = .identifier at kindEq
    rcases fst_templateTail cs with same | same <;> rw [same] at kindEq <;> cases kindEq
  | line => cases kindEq
  | quoted =>
    rw [lexemeTail_quoted] at counted
    split at counted
    · rename_i follows
      exact .inl ⟨rfl, follows, congrArg Prod.snd counted⟩
    · cases counted
  | escaped =>
    rw [lexemeTail_escaped] at counted
    split at counted
    · rename_i escape
      exact .inr (.inl ⟨rfl, escape, congrArg Prod.snd counted⟩)
    · cases counted
  | word plain =>
    cases wordClass plain with
    | equals =>
      rw [lexemeTail_equals] at counted
      split at counted <;> cases counted
    | name start taken =>
      rw [taken] at counted
      obtain ⟨kindEq, rfl⟩ := Prod.mk.inj counted
      exact .inr (.inr ⟨start, rfl, kindEq⟩)
    | number taken | operator taken | unknown taken =>
      rw [taken] at counted
      cases counted

/-- An identifier, unless it is a quotation mark alone, is read in front of every text that does not
go on with it. -/
theorem lexemeTail_append_of_identifier {c : Char} {rest cs : List Char}
    (counted : lexemeTail c (rest ++ cs) = (.identifier, rest.length)) (notQuote : c :: rest ≠ ['\''])
    {after : List Char} (stops : identifierTail after = 0) :
    lexemeTail c (rest ++ after) = (.identifier, rest.length) := by
  rcases lexemeTail_eq_identifier counted with
    ⟨rfl, follows, ends⟩ | ⟨rfl, escape, ends⟩ | ⟨start, ends, word⟩
  · have further := (identifierTail_append _ _ ends).2 _ stops
    cases rest with
    | nil => exact absurd rfl notQuote
    | cons d rest =>
      have quoted : startsWith followsQuote (d :: rest ++ after) = true := follows
      change (if startsWith followsQuote _ then _ else _) = _
      rw [if_pos quoted, further]
  · cases rest with
    | nil =>
      simp only [List.length_nil] at ends
      omega
    | cons d rest =>
      simp only [List.cons_append, List.drop_succ_cons, List.drop_zero, List.length_cons] at ends
      have further := (identifierTail_append rest cs (by omega)).2 _ stops
      have escaped : startsWith isEscapable (d :: rest ++ after) = true := escape
      change (if startsWith isEscapable _ then _ else _) = _
      rw [if_pos escaped, List.cons_append, List.drop_succ_cons, List.drop_zero, further,
        List.length_cons, Nat.add_comm]
  · have further := (identifierTail_append _ _ ends).2 _ stops
    rw [List.take_left] at word
    rw [lexemeTail_of_isIdentifierStart start, further, List.take_left, word]

/-- An identifier is read in front of a closing brace, unless it is a quotation mark alone. -/
theorem lexemeTail_beforeBrace {c : Char} {rest cs : List Char}
    (counted : lexemeTail c (rest ++ cs) = (.identifier, rest.length)) (after : List Char) :
    lexemeTail c (rest ++ '\x7d' :: after) =
      (if c :: rest = ['\''] then .unknown else .identifier, rest.length) := by
  split
  · rename_i quote
    obtain ⟨rfl, rfl⟩ := List.cons.inj quote
    rfl
  · rename_i notQuote
    have stops : identifierTail ('\x7d' :: after) = 0 := by
      rw [identifierTail_cons]
      rfl
    exact lexemeTail_append_of_identifier counted notQuote stops

end Scan

/-! ## Tokens of a name -/

namespace Token

/-- The token as the scanner reads it in front of a closing brace. -/
def beforeBrace (token : Token) : Token :=
  if token.lexeme = ['\''] then { token with kind := .unknown } else token

@[simp] theorem lexeme_beforeBrace (token : Token) : token.beforeBrace.lexeme = token.lexeme := by
  unfold beforeBrace
  split <;> rfl

@[simp] theorem leading_beforeBrace (token : Token) :
    token.beforeBrace.leading = token.leading := by
  unfold beforeBrace
  split <;> rfl

@[simp] theorem trailing_beforeBrace (token : Token) :
    token.beforeBrace.trailing = token.trailing := by
  unfold beforeBrace
  split <;> rfl

@[simp] theorem text_beforeBrace (token : Token) : token.beforeBrace.text = token.text := by
  unfold beforeBrace
  split <;> rfl

theorem beforeBrace_eq_self (token : Token) (notQuote : token.lexeme ≠ ['\'']) :
    token.beforeBrace = token := if_neg notQuote

variable {token : Token} {after : List Char}

theorem Reads.lexeme_of_punctuation (reads : token.Reads after) {mark : Char}
    (isMark : (mark, token.kind) ∈ Scan.punctuation) : token.lexeme = [mark] := by
  have unique : ∀ left ∈ Scan.punctuation, ∀ right ∈ Scan.punctuation,
      left.2 = right.2 → left.1 = right.1 := by
    decide
  obtain ⟨first, rest, lexemeEq, counted⟩ := reads.exists_lexeme
  have kindEq : (Scan.lexemeTail first (rest ++ (token.trailing.text ++ after))).1 = token.kind :=
    congrArg Prod.fst counted
  rw [← kindEq] at isMark
  obtain ⟨firstMark, none⟩ := Scan.lexemeTail_of_punctuation (List.mem_map_of_mem isMark)
  have sameMark : mark = first := unique _ isMark _ firstMark rfl
  rw [counted] at none
  rw [lexemeEq, List.eq_nil_of_length_eq_zero none, sameMark]

theorem Reads.lexeme_of_colon (reads : token.Reads after) (isColon : token.kind = .colon) :
    token.lexeme = [':'] :=
  reads.lexeme_of_punctuation (by rw [isColon]; decide)

/-- A colon is read in front of every text in front of which its trivia ends. -/
theorem reads_colon {leading trailing : Trivia} {before : List Char}
    (leads : leading.Leads (':' :: before)) (trails : trailing.Trails after) :
    (⟨leading, .colon, [':'], trailing⟩ : Token).Reads after where
  some := by simp
  leads := leads.of_head [] (by decide) _
  ends := by
    intro first rest same
    obtain ⟨rfl, rfl⟩ := List.cons.inj same
    rfl
  trails := trails

/-- The first character of an identifier is no slash. -/
theorem Reads.exists_identifier (reads : token.Reads after) (isIdentifier : token.kind = .identifier) :
    ∃ first rest, token.lexeme = first :: rest ∧ first ≠ '/' ∧
      Scan.lexemeTail first (rest ++ (token.trailing.text ++ after)) =
        (.identifier, rest.length) := by
  obtain ⟨first, rest, lexemeEq, counted⟩ := reads.exists_lexeme
  rw [isIdentifier] at counted
  refine ⟨first, rest, lexemeEq, ?_, counted⟩
  rintro rfl
  cases counted

/-- The trivia in front of an identifier ends there whatever stands behind it. -/
theorem Reads.leads_of_identifier (reads : token.Reads after)
    (isIdentifier : token.kind = .identifier) (behind : List Char) :
    token.leading.Leads (token.lexeme ++ behind) := by
  obtain ⟨first, rest, lexemeEq, noSlash, _⟩ := reads.exists_identifier isIdentifier
  have leads := reads.leads
  rw [lexemeEq, List.cons_append] at leads ⊢
  exact leads.of_head [] noSlash _

/-- An identifier moves in front of a closing brace. -/
theorem Reads.closed (reads : token.Reads after) (isIdentifier : token.kind = .identifier)
    (behind : List Char) : token.withoutTrailing.beforeBrace.Reads ('\x7d' :: behind) := by
  obtain ⟨first, rest, lexemeEq, _, counted⟩ := reads.exists_identifier isIdentifier
  have moved := reads.leads_of_identifier isIdentifier ('\x7d' :: behind)
  rw [lexemeEq] at moved
  have kindEq : token.withoutTrailing.beforeBrace.kind =
      if first :: rest = ['\''] then .unknown else .identifier := by
    rw [beforeBrace, withoutTrailing, withTrailing]
    simp only [lexemeEq]
    split
    · rfl
    · exact isIdentifier
  have leadingEq : token.withoutTrailing.beforeBrace.leading = token.leading :=
    leading_beforeBrace _
  have trailingEq : token.withoutTrailing.beforeBrace.trailing = [] := trailing_beforeBrace _
  have lexemeEq' : token.withoutTrailing.beforeBrace.lexeme = first :: rest :=
    (lexeme_beforeBrace _).trans lexemeEq
  refine ⟨?_, ?_, ?_, ?_⟩
  · rw [lexemeEq']
    exact List.cons_ne_nil _ _
  · rw [lexemeEq', leadingEq, trailingEq]
    exact moved
  · intro c tail same
    rw [lexemeEq'] at same
    obtain ⟨rfl, rfl⟩ := List.cons.inj same
    rw [kindEq, trailingEq]
    exact Scan.lexemeTail_beforeBrace counted behind
  · rw [trailingEq]
    exact (Scan.piece?_cons_eq_none_iff _ _).mpr
      ⟨by decide, by decide, by decide, fun slash => absurd slash (by decide)⟩

/-- A quotation mark alone is an identifier only in front of a backslash. -/
theorem Reads.lexeme_ne_quote (reads : token.Reads after) (isIdentifier : token.kind = .identifier)
    (noBackslash : Scan.startsWith (· == '\\') (token.trailing.text ++ after) = false) :
    token.lexeme ≠ ['\''] := by
  intro alone
  have counted := reads.ends _ _ alone
  rw [isIdentifier, List.nil_append, List.length_nil] at counted
  rcases Scan.lexemeTail_eq_identifier counted with ⟨_, follows, ends⟩ | ⟨same, _⟩ | ⟨start, _⟩
  · have noPart := ((Scan.identifierTail_eq_zero_iff _).mp ends).1
    cases behindEq : token.trailing.text ++ after with
    | nil => simp [behindEq, Scan.startsWith] at follows
    | cons c cs =>
      simp only [behindEq, Scan.startsWith] at follows noPart noBackslash
      rw [Scan.followsQuote, noBackslash, Bool.or_false] at follows
      rw [Scan.isIdentifierPart_of_start follows] at noPart
      cases noPart
  · exact absurd same (by decide)
  · exact absurd start (by decide)

/-- An identifier, unless it is a quotation mark alone, is read in front of other trivia and another
text behind them that do not go on with it. -/
theorem Reads.withTrailing (reads : token.Reads after) (isIdentifier : token.kind = .identifier)
    (notQuote : token.lexeme ≠ ['\'']) {trailing : Trivia} {behind : List Char}
    (trails : trailing.Trails behind) (stops : Scan.identifierTail (trailing.text ++ behind) = 0) :
    (token.withTrailing trailing).Reads behind := by
  obtain ⟨first, rest, lexemeEq, _, counted⟩ := reads.exists_identifier isIdentifier
  refine ⟨reads.some, reads.leads_of_identifier isIdentifier _, ?_, trails⟩
  intro c tail same
  obtain ⟨rfl, rfl⟩ := List.cons.inj (lexemeEq.symm.trans same)
  rw [lexemeEq] at notQuote
  exact (Scan.lexemeTail_append_of_identifier counted notQuote stops).trans
    (by rw [← isIdentifier]; rfl)

/-- The module of a name is read in front of a colon without the trivia in front of it, and it is no
quotation mark alone. -/
theorem Reads.front {front colon : Token} {after : List Char}
    (readsFront : front.Reads (colon.text ++ after)) (readsColon : colon.Reads after)
    (isFront : front.kind = .identifier) (isColon : colon.kind = .colon) (behind : List Char) :
    front.withoutLeading.beforeBrace.Reads (colon.leading.text ++ ':' :: behind) := by
  have colonEq := readsColon.lexeme_of_colon isColon
  have textEq : colon.text ++ after =
      colon.leading.text ++ ':' :: (colon.trailing.text ++ after) := by
    simp [text, colonEq]
  have leads := readsColon.leads
  rw [colonEq, List.singleton_append] at leads
  rw [textEq] at readsFront
  have notQuote : front.lexeme ≠ ['\''] := by
    refine readsFront.lexeme_ne_quote isFront ?_
    exact readsFront.trails.startsWith_backslash (leads.startsWith_backslash rfl)
  rw [beforeBrace_eq_self front.withoutLeading notQuote]
  refine readsFront.withoutLeading.of_alike (Scan.Alike.append_left _ ?_)
  exact .shield _ _ (by decide)

/-- The colon of a name keeps its place between the two parts. -/
theorem Reads.colon {colon : Token} {after : List Char} (readsColon : colon.Reads after)
    (isColon : colon.kind = .colon) {trailing : Trivia} {behind : List Char}
    (trails : trailing.Trails behind) : (colon.withTrailing trailing).beforeBrace.Reads behind := by
  have colonEq := readsColon.lexeme_of_colon isColon
  have leads := readsColon.leads
  obtain ⟨leading, kind, lexeme, _⟩ := colon
  simp only at colonEq isColon leads
  subst colonEq isColon
  exact reads_colon leads trails

end Token

/-- The tokens of a name, of which recovery may have left out the last one. -/
inductive NameTokens : List Token → Prop where
  | simple {name : Token} : name.kind = .identifier → NameTokens [name]
  | unfinished {front colon : Token} : front.kind = .identifier → colon.kind = .colon →
      NameTokens [front, colon]
  | qualified {front colon name : Token} : front.kind = .identifier → colon.kind = .colon →
      name.kind = .identifier → NameTokens [front, colon, name]

/-- The tokens of a name that was cut out and put in front of a closing brace. -/
def closedName (name : List Token) : List Token :=
  (Tree.changeLast Token.withoutTrailing (name.modifyHead Token.withoutLeading)).map
    Token.beforeBrace

@[simp] theorem closedName_simple (name : Token) :
    closedName [name] = [name.withoutLeading.withoutTrailing.beforeBrace] := rfl

@[simp] theorem closedName_unfinished (front colon : Token) :
    closedName [front, colon] =
      [front.withoutLeading.beforeBrace, colon.withoutTrailing.beforeBrace] := rfl

@[simp] theorem closedName_qualified (front colon name : Token) :
    closedName [front, colon, name] =
      [front.withoutLeading.beforeBrace, colon.beforeBrace, name.withoutTrailing.beforeBrace] := rfl

/-- The tokens of a name are identifiers, colons or of unknown kind. The first one is no colon and
has no trivia in front. -/
theorem exists_closedName {name : List Token} (isName : NameTokens name) :
    ∃ first rest, closedName name = first :: rest ∧ first.leading = [] ∧
      (first.kind = .identifier ∨ first.kind = .unknown) ∧
      ∀ token ∈ rest, token.kind = .identifier ∨ token.kind = .colon ∨ token.kind = .unknown := by
  have moved (token : Token) {known : Kind} (isKnown : token.kind = known) :
      token.beforeBrace.kind = known ∨ token.beforeBrace.kind = .unknown := by
    unfold Token.beforeBrace
    split
    · exact .inr rfl
    · exact .inl isKnown
  have further (token : Token) (isColon : token.kind = .colon) :
      token.beforeBrace.kind = .identifier ∨ token.beforeBrace.kind = .colon ∨
        token.beforeBrace.kind = .unknown := .inr (moved token isColon)
  cases isName with
  | simple isIdentifier =>
    exact ⟨_, [], rfl, Token.leading_beforeBrace _, moved _ isIdentifier, by simp⟩
  | @unfinished front colon isFront isColon =>
    refine ⟨_, _, closedName_unfinished _ _, Token.leading_beforeBrace _,
      moved front.withoutLeading isFront, ?_⟩
    simpa using further colon.withoutTrailing isColon
  | @qualified front colon last isFront isColon isLast =>
    refine ⟨_, _, closedName_qualified _ _ _, Token.leading_beforeBrace _,
      moved front.withoutLeading isFront, ?_⟩
    simp only [List.mem_cons, List.not_mem_nil, or_false, forall_eq_or_imp, forall_eq]
    exact ⟨further _ isColon, (moved last.withoutTrailing isLast).imp id .inr⟩

namespace TokenStream

theorem piece?_brace (behind : List Char) : Scan.piece? ('\x7d' :: behind) = none :=
  (Scan.piece?_cons_eq_none_iff _ _).mpr
    ⟨by decide, by decide, by decide, fun slash => absurd slash (by decide)⟩

/-- A name is read in front of a closing brace. -/
theorem tiles_closedName {name : List Token} {after : List Char} (isName : NameTokens name)
    (tiles : Tiles name after) (behind : List Char) :
    Tiles (closedName name) ('\x7d' :: behind) := by
  cases isName with
  | simple isIdentifier =>
    exact ⟨tiles.1.withoutLeading.closed isIdentifier behind, trivial⟩
  | @unfinished front colon isFront isColon =>
    obtain ⟨readsFront, readsColon, _⟩ := tiles
    have colonEq := readsColon.lexeme_of_colon isColon
    refine ⟨?_, readsColon.colon isColon (piece?_brace behind), trivial⟩
    simp only [List.flatMap_cons, List.flatMap_nil, List.append_nil, List.nil_append]
      at readsFront readsColon
    have moved := readsFront.front readsColon isFront isColon ('\x7d' :: behind)
    simpa [closedName, Tree.changeLast, Token.withoutTrailing, colonEq] using moved
  | @qualified front colon last isFront isColon isLast =>
    obtain ⟨readsFront, readsColon, readsLast, _⟩ := tiles
    have colonEq := readsColon.lexeme_of_colon isColon
    obtain ⟨first, rest, lexemeEq, noSlash, _⟩ := readsLast.exists_identifier isLast
    have lastEq : last.text ++ after =
        last.leading.text ++ first :: (rest ++ (last.trailing.text ++ after)) := by
      simp [Token.text, lexemeEq]
    have trails := readsColon.trails
    simp only [List.flatMap_cons, List.flatMap_nil, List.append_nil, List.append_assoc]
      at readsFront readsColon trails
    rw [lastEq] at trails
    have moved := readsFront.front readsColon isFront isColon
    refine ⟨?_, ?_, readsLast.closed isLast behind, trivial⟩
    · have colonText : colon.text = colon.leading.text ++ ':' :: colon.trailing.text := by
        simp [Token.text, colonEq]
      simpa [closedName, Tree.changeLast, colonText] using moved _
    · have kept := trails.of_head noSlash (rest ++ '\x7d' :: behind)
      have movedColon := readsColon.colon isColon kept
      simpa [closedName, Tree.changeLast, Token.withoutTrailing, lexemeEq] using movedColon

end TokenStream

end ServiceAnnotator
