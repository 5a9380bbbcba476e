import ServiceAnnotator.Proofs.Scan.Reading

/-!
# Keywords of a service

An annotation is put in front of the qualifiers and the keyword of a service. A keyword is a word
that is spelled out, so its first letter tells which of these it can be.
-/

namespace ServiceAnnotator

open Scan (isServiceInitial)

/-- Keywords in front of which an annotation may be put. -/
def Kind.startsService : Kind → Bool
  | .publicKw | .isolatedKw | .finalKw | .configurableKw | .serviceKw => true
  | _ => false

namespace Scan

/-- A keyword is spelled out. -/
theorem mem_keywords_of_ofKeyword? {word : List Char} {kind : Kind}
    (found : Kind.ofKeyword? word = some kind) :
    ∃ spelling, (spelling, kind) ∈ Kind.keywords ∧ spelling.toList = word := by
  rw [Kind.ofKeyword?, Option.map_eq_some_iff] at found
  obtain ⟨⟨spelling, keyword⟩, search, rfl⟩ := found
  refine ⟨spelling, List.mem_of_find?_eq_some search, ?_⟩
  simpa using List.find?_some search

/-- A word is an identifier or a keyword. -/
theorem wordKind_ne {kind : Kind} (noIdentifier : kind ≠ .identifier)
    (noKeyword : ∀ entry ∈ Kind.keywords, entry.2 ≠ kind) (word : List Char) :
    wordKind word ≠ kind := by
  intro sameKind
  rw [wordKind] at sameKind
  cases found : Kind.ofKeyword? word with
  | none =>
    rw [found, Option.getD_none] at sameKind
    exact noIdentifier sameKind.symm
  | some keyword =>
    obtain ⟨spelling, isKeyword, _⟩ := mem_keywords_of_ofKeyword? found
    rw [found, Option.getD_some] at sameKind
    exact noKeyword _ isKeyword sameKind

/-- Kinds of lexemes that are neither marks of one character nor words. -/
def otherKinds : List Kind :=
  [.ellipsis, .dot, .stringLiteral, .templateLiteral, .documentationLine, .identifier, .equals,
    .numericLiteral, .operator, .unknown]

/-- The kind of a lexeme is that of a mark, is told by its class, or is that of a word. -/
theorem fst_lexemeTail_cases (c : Char) (cs : List Char) :
    ((c, (lexemeTail c cs).1) ∈ punctuation ∧ (lexemeTail c cs).2 = 0) ∨
      (lexemeTail c cs).1 ∈ otherKinds ∨
      (lexemeTail c cs).1 = wordKind (c :: cs.take (lexemeTail c cs).2) := by
  cases lexemeClass c with
  | mark isMark =>
    rw [lexemeTail_of_mem_punctuation isMark]
    exact .inl ⟨isMark, rfl⟩
  | point =>
    rw [lexemeTail_point]
    split <;> exact .inr (.inl (by simp [otherKinds]))
  | string =>
    refine .inr (.inl ?_)
    change (stringTail cs).1 ∈ otherKinds
    rcases fst_stringTail cs with same | same <;> rw [same] <;> decide
  | template =>
    refine .inr (.inl ?_)
    change (templateTail cs).1 ∈ otherKinds
    rcases fst_templateTail cs with same | same <;> rw [same] <;> decide
  | line => exact .inr (.inl (by decide : .documentationLine ∈ otherKinds))
  | quoted =>
    rw [lexemeTail_quoted]
    split <;> exact .inr (.inl (by simp [otherKinds]))
  | escaped =>
    rw [lexemeTail_escaped]
    split <;> exact .inr (.inl (by simp [otherKinds]))
  | word plain =>
    cases wordClass plain with
    | equals =>
      rw [lexemeTail_equals]
      split <;> exact .inr (.inl (by simp [otherKinds]))
    | name start taken =>
      rw [taken]
      exact .inr (.inr rfl)
    | number taken | operator taken | unknown taken =>
      rw [taken]
      exact .inr (.inl (by simp [otherKinds]))

/-- No lexeme is the end of the file. -/
theorem fst_lexemeTail_ne_endOfFile (c : Char) (cs : List Char) :
    (lexemeTail c cs).1 ≠ .endOfFile := by
  rcases fst_lexemeTail_cases c cs with ⟨isMark, -⟩ | other | word
  · have noEnd : ∀ entry ∈ punctuation, entry.2 ≠ .endOfFile := by decide
    exact noEnd _ isMark
  · exact ne_of_mem_of_not_mem other (by decide)
  · rw [word]
    exact wordKind_ne (by decide) (by decide) _

theorem isServiceInitial_of_mem_keywords {spelling : String} {kind : Kind} {first : Char}
    {rest : List Char} (keyword : (spelling, kind) ∈ Kind.keywords)
    (starts : kind.startsService) (spelled : spelling.toList = first :: rest) :
    isServiceInitial first = true := by
  have initials : ∀ entry ∈ Kind.keywords, entry.2.startsService = true →
      entry.1.toList.head?.all isServiceInitial = true := by
    decide
  simpa [spelled] using initials _ keyword starts

/-- Only a word can be a keyword. -/
theorem ofKeyword?_of_lexemeTail {first : Char} {cs rest : List Char} {kind : Kind}
    (starts : kind.startsService) (counted : lexemeTail first (rest ++ cs) = (kind, rest.length)) :
    Kind.ofKeyword? (first :: rest) = some kind := by
  have cases := fst_lexemeTail_cases first (rest ++ cs)
  rw [counted, List.take_left] at cases
  rcases cases with ⟨isMark, -⟩ | other | word
  · have none : ∀ entry ∈ punctuation, entry.2.startsService = false := by decide
    rw [none _ isMark] at starts
    cases starts
  · have none : ∀ kind ∈ otherKinds, kind.startsService = false := by decide
    rw [none _ other] at starts
    cases starts
  · have kindEq : kind = wordKind (first :: rest) := word
    rw [wordKind] at kindEq
    cases found : Kind.ofKeyword? (first :: rest) with
    | none =>
      rw [found] at kindEq
      subst kindEq
      cases starts
    | some keyword => rw [kindEq, found, Option.getD_some]

end Scan

/-- The scanner reads no end of the file in front of a text. -/
theorem Token.Reads.kind_ne_endOfFile {token : Token} {after : List Char}
    (reads : token.Reads after) : token.kind ≠ .endOfFile := by
  obtain ⟨first, rest, _, counted⟩ := reads.exists_lexeme
  have noEnd := Scan.fst_lexemeTail_ne_endOfFile first (rest ++ (token.trailing.text ++ after))
  rwa [counted] at noEnd

/-- Only the last token of a text is the end of the file. -/
theorem TokenStream.kind_ne_endOfFile {token : Token} {text : List Char}
    (found : token ∈ (scan text).tokens) : token.kind ≠ .endOfFile := by
  obtain ⟨pieces, _, _, tiles, _⟩ := tiles_scan text
  generalize (scan text).tokens = tokens at found tiles
  induction tokens with
  | nil => cases found
  | cons first rest ih =>
    cases found with
    | head => exact tiles.1.kind_ne_endOfFile
    | tail _ behind => exact ih behind tiles.2

theorem TokenStream.kind_endOfFile (text : List Char) : (scan text).endOfFile.kind = .endOfFile := by
  obtain ⟨pieces, _, endEq, _, _⟩ := tiles_scan text
  rw [endEq]

/-- The lexeme of a keyword in front of which an annotation may be put has the first letter of such
a keyword. -/
theorem Token.Reads.isServiceInitial {token : Token} {after : List Char}
    (reads : token.Reads after) (starts : token.kind.startsService) :
    ∃ first rest, token.lexeme = first :: rest ∧ isServiceInitial first = true := by
  obtain ⟨first, rest, lexemeEq, counted⟩ := reads.exists_lexeme
  have spelled := Scan.ofKeyword?_of_lexemeTail starts counted
  obtain ⟨spelling, keyword, same⟩ := Scan.mem_keywords_of_ofKeyword? spelled
  exact ⟨first, rest, lexemeEq, Scan.isServiceInitial_of_mem_keywords keyword starts same⟩

end ServiceAnnotator
