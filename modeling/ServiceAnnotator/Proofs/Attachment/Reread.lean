import ServiceAnnotator.Proofs.Attachment.Service
import ServiceAnnotator.Proofs.Grammar.Frame.Member
import ServiceAnnotator.Proofs.Scan.Name

/-!
# An annotation read back

An annotation that was printed and is read again is not quite the tree that was printed: the blank
in front of its mapping belongs to the name of the annotation, and the type that it names has become
the tokens of an expression. Apart from that it has the same tokens, and it is an annotation of the
same module and name.
-/

namespace ServiceAnnotator.Attachment

open Grammar (attachment attachments next fieldEnd runLength depthBehind? fields fieldValue)

/-! ## Tokens and tree -/

/-- The name of the annotation with the blank behind it. -/
def spacedName : Token :=
  (Token.bare .identifier annotationName).withTrailing (Trivia.layout [' '])

/-- The colon between a field and its value with the blank behind it. -/
def spacedColon : Token := (Token.bare .colon ":".toList).withTrailing (Trivia.layout [' '])

/-- The tokens of an annotation in front of the type that it names, as they are read back. -/
def readOpening (leading : Trivia) : List Token :=
  [(Token.bare .atSign "@".toList).withLeading leading, .bare .identifier annotationModule,
    .bare .colon ":".toList, spacedName, .bare .leftBrace "\x7b".toList,
    .bare .identifier typeField, spacedColon]

/-- The tokens of an annotation, as they are read back. -/
def readTokens (leading : Trivia) (name : List Token) (lineBreak : List Char) : List Token :=
  readOpening leading ++ (closedName name ++ [closing lineBreak])

/-- The field of an annotation, as it is read back. -/
def readField (name : List Token) : Tree Token :=
  .node .specificField [.leaf (.bare .identifier typeField), .leaf spacedColon,
    .node .expression ((closedName name).map .leaf)]

/-- The reference of an annotation, as it is read back. -/
def readReference : Tree Token :=
  .node .qualifiedNameReference [.leaf (.bare .identifier annotationModule),
    .leaf (.bare .colon ":".toList), .leaf spacedName]

/-- An annotation, as it is read back. -/
def readAttachment (leading : Trivia) (name : List Token) (lineBreak : List Char) : Tree Token :=
  .node .annotationAttachment
    [.leaf ((Token.bare .atSign "@".toList).withLeading leading), readReference,
      .node .mappingConstructor [.leaf (.bare .leftBrace "\x7b".toList), readField name,
        .leaf (closing lineBreak)]]

theorem leaves_readAttachment (leading : Trivia) (name : List Token) (lineBreak : List Char) :
    (readAttachment leading name lineBreak).leaves = readTokens leading name lineBreak := by
  simp [readAttachment, readReference, readField, readTokens, readOpening]

/-! ## Parsing -/

/-- The tokens of a name do not end the value of a field. -/
theorem depthBehind?_closedName {name : List Token} (isName : NameTokens name) :
    ∀ token ∈ closedName name, depthBehind? fieldEnd 0 token.kind = some 0 := by
  obtain ⟨first, rest, closedEq, _, firstKind, restKinds⟩ := exists_closedName isName
  rw [closedEq]
  intro token inside
  rcases List.mem_cons.mp inside with rfl | later
  · rcases firstKind with same | same <;> rw [same] <;> rfl
  · rcases restKinds token later with same | same | same <;> rw [same] <;> rfl

theorem runLength_append_of_forall {tokens behind : List Token}
    (inside : ∀ token ∈ tokens, depthBehind? fieldEnd 0 token.kind = some 0)
    (ends : runLength fieldEnd 0 behind = 0) :
    runLength fieldEnd 0 (tokens ++ behind) = tokens.length := by
  induction tokens with
  | nil => exact ends
  | cons token tokens ih =>
    have first : depthBehind? fieldEnd 0 (kind token) = some 0 := inside token (by simp)
    rw [List.cons_append, Grammar.runLength_cons, first, Option.elim_some,
      ih fun other later => inside other (by simp [later]), List.length_cons, Nat.add_comm]

/-- Tokens that neither are brackets nor end the value of a field are parsed as an expression. -/
theorem fieldValue_of_forall {tokens behind : List Token} (some : tokens ≠ [])
    (inside : ∀ token ∈ tokens, depthBehind? fieldEnd 0 token.kind = Option.some 0)
    (ends : runLength fieldEnd 0 behind = 0) :
    (fieldValue (tokens ++ behind)).val =
      ⟨[.node .expression (tokens.map .leaf)], [], behind⟩ := by
  have counted := runLength_append_of_forall inside ends
  have positive : tokens.length ≠ 0 := mt List.length_eq_zero_iff.mp some
  have noBrace : next (tokens ++ behind) ≠ .leftBrace := by
    obtain ⟨first, rest, rfl⟩ := List.exists_cons_of_ne_nil some
    intro isBrace
    have flat := inside first (.head _)
    have brace : first.kind = .leftBrace := isBrace
    rw [brace] at flat
    cases flat
  rw [Grammar.val_fieldValue, if_neg noBrace, Grammar.expression, counted]
  simp only [positive, ↓reduceIte, Parsed.wrap, Parsed.tokens, List.take_left, List.drop_left]

/-- In front of a closing brace no value goes on. -/
theorem runLength_rightBrace {brace : Token} (isBrace : brace.kind = .rightBrace)
    (behind : List Token) : runLength fieldEnd 0 (brace :: behind) = 0 := by
  have closes : depthBehind? fieldEnd 0 (kind brace) = none := by
    change depthBehind? fieldEnd 0 brace.kind = none
    rw [isBrace]
    rfl
  rw [Grammar.runLength_cons, closes, Option.elim_none]

/-- The type in an annotation is parsed as an expression. -/
theorem fieldValue_closedName {name : List Token} (isName : NameTokens name) (brace : Token)
    (isBrace : brace.kind = .rightBrace) (behind : List Token) :
    (fieldValue (closedName name ++ brace :: behind)).val =
      ⟨[.node .expression ((closedName name).map .leaf)], [], brace :: behind⟩ := by
  obtain ⟨first, rest, closedEq, -⟩ := exists_closedName isName
  have some : closedName name ≠ [] := by simp [closedEq]
  exact fieldValue_of_forall some (depthBehind?_closedName isName)
    (runLength_rightBrace isBrace behind)

/-- A key, a colon and a value are parsed as a field, and what stands behind as further fields. -/
theorem fields_of_fieldValue {key colon : Token} {tokens behind rest : List Token}
    {value : Tree Token} {others : List (Tree Token)} (isKey : key.kind = .identifier)
    (isColon : colon.kind = .colon) (inside : (fieldValue tokens).val = ⟨[value], [], behind⟩)
    (further : (Grammar.furtherFields behind).val = ⟨others, [], rest⟩) :
    (fields (key :: colon :: tokens)).val =
      ⟨.node .specificField [.leaf key, .leaf colon, value] :: others, [], rest⟩ := by
  have starts : kind key = .identifier := isKey
  have separates : next (colon :: tokens) = .colon := isColon
  have field : (Grammar.field key (colon :: tokens)).val =
      ⟨[.node .specificField [.leaf key, .leaf colon, value]], [], behind⟩ := by
    rw [Grammar.val_field, starts, if_neg (by decide), if_pos separates, Parsed.andThen,
      Parsed.rest_tokens, List.drop_succ_cons, List.drop_zero, inside]
    rfl
  rw [Grammar.val_fields_cons, starts, if_neg (by decide), if_neg (by decide), if_pos (by decide),
    Parsed.andThen, field, further]
  rfl

/-- The fields of an annotation are parsed as its one field. -/
theorem fields_readTokens {name : List Token} (isName : NameTokens name) (lineBreak : List Char)
    (behind : List Token) :
    (fields (.bare .identifier typeField :: spacedColon ::
        (closedName name ++ closing lineBreak :: behind))).val =
      ⟨[readField name, .leaf (closing lineBreak)], [], behind⟩ := by
  have value := fieldValue_closedName isName (closing lineBreak) rfl behind
  have further : (Grammar.furtherFields (closing lineBreak :: behind)).val =
      ⟨[.leaf (closing lineBreak)], [], behind⟩ := by
    rw [Grammar.val_furtherFields_cons]
    rfl
  exact fields_of_fieldValue rfl rfl value further

/-- A qualified name with fields behind a brace is parsed as an annotation, and no other one
follows. -/
theorem attachments_of_fields {sign moduleName colon name brace : Token} {inner behind : List Token}
    {parts : List (Tree Token)}
    (kinds : [sign, moduleName, colon, name, brace].map Token.kind =
      [.atSign, .identifier, .colon, .identifier, .leftBrace])
    (inside : (fields inner).val = ⟨parts, [], behind⟩) (noSign : next behind ≠ .atSign) :
    attachments (sign :: moduleName :: colon :: name :: brace :: inner) =
      ⟨[.node .annotationAttachment [.leaf sign,
        .node .qualifiedNameReference [.leaf moduleName, .leaf colon, .leaf name],
        .node .mappingConstructor (.leaf brace :: parts)]], [], behind⟩ := by
  simp only [List.map_cons, List.map_nil, List.cons.injEq, and_true] at kinds
  obtain ⟨isSign, isModule, isColon, isName, isBrace⟩ := kinds
  have reference : Grammar.nameReference Grammar.attachmentRecovery
      (moduleName :: colon :: name :: brace :: inner) =
      ⟨[.node .qualifiedNameReference [.leaf moduleName, .leaf colon, .leaf name]], [],
        brace :: inner⟩ := by
    have last : Grammar.expect .identifier (name :: brace :: inner) =
        ⟨[.leaf name], [], brace :: inner⟩ := if_pos isName
    have starts : kind moduleName = .identifier := isModule
    have qualified : next (colon :: name :: brace :: inner) = .colon := isColon
    rw [Grammar.nameReference, if_pos starts, if_pos qualified, Parsed.andThen, Parsed.rest_tokens,
      List.drop_succ_cons, List.drop_succ_cons, List.drop_zero, last]
    rfl
  have mapping : Grammar.mapping? (brace :: inner) =
      ⟨[.node .mappingConstructor (.leaf brace :: parts)], [], behind⟩ := by
    have opens : next (brace :: inner) = .leftBrace := isBrace
    rw [Grammar.mapping?_eq, if_pos opens, Parsed.andThen, Parsed.rest_tokens, List.drop_succ_cons,
      List.drop_zero, inside]
    rfl
  have first : attachment sign (moduleName :: colon :: name :: brace :: inner) =
      ⟨[.node .annotationAttachment [.leaf sign,
        .node .qualifiedNameReference [.leaf moduleName, .leaf colon, .leaf name],
        .node .mappingConstructor (.leaf brace :: parts)]], [], behind⟩ := by
    rw [attachment, reference, Parsed.andThen, mapping]
    rfl
  have starts : kind sign = .atSign := isSign
  rw [Grammar.attachments_cons, if_pos starts, first, Parsed.andThen,
    Grammar.attachments_of_next_ne noSign]
  rfl

/-- The tokens of an annotation are parsed as the annotation. -/
theorem attachments_readTokens {leading : Trivia} {name : List Token} {lineBreak : List Char}
    (isName : NameTokens name) {behind : List Token} (noSign : next behind ≠ .atSign) :
    attachments (readTokens leading name lineBreak ++ behind) =
      ⟨[readAttachment leading name lineBreak], [], behind⟩ := by
  have split : readTokens leading name lineBreak ++ behind =
      readOpening leading ++ (closedName name ++ closing lineBreak :: behind) := by
    simp [readTokens]
  rw [split]
  exact attachments_of_fields rfl (fields_readTokens isName lineBreak behind) noSign

/-! ## Scanning -/

/-- Characters that a word without marks starts with. -/
def startsWord (c : Char) : Bool :=
  Scan.isIdentifierStart c && c != '=' && !c.isDigit &&
    !("@:;,()\x7b\x7d[]?/.\"\x60#'\\".toList.contains c) && c != '\n' && c != '\r' &&
      !Scan.isInlineBlank c

/-- A word is read in front of a text that cannot continue it. -/
theorem reads_word {first : Char} {rest : List Char} {trailing : Trivia} {after : List Char}
    (starts : startsWord first) (parts : rest.all Scan.isIdentifierPart = true)
    (noKeyword : Kind.ofKeyword? (first :: rest) = none) (trails : trailing.Trails after)
    (stops : Scan.identifierTail (trailing.text ++ after) = 0) :
    (⟨[], .identifier, first :: rest, trailing⟩ : Token).Reads after := by
  simp only [startsWord, Bool.and_eq_true, bne_iff_ne, ne_eq, Bool.not_eq_true'] at starts
  obtain ⟨⟨⟨⟨⟨⟨start, _⟩, _⟩, plain⟩, noFeed⟩, noReturn⟩, noBlank⟩ := starts
  refine ⟨List.cons_ne_nil _ _, ?_, ?_, trails⟩
  · refine (Scan.piece?_cons_eq_none_iff _ _).mpr ⟨noFeed, noReturn, noBlank, ?_⟩
    rintro rfl
    exact absurd plain (by decide)
  · intro c tail same
    obtain ⟨rfl, rfl⟩ := List.cons.inj same
    have counted := Scan.identifierTail_of_all parts stops
    rw [Scan.lexemeTail_of_isIdentifierStart start, counted, List.take_left, Scan.wordKind,
      noKeyword, Option.getD_none]

/-- Nothing stands in front of a character that is no blank, no line break and no slash. -/
theorem piece?_eq_none_of_mark {c : Char} (cs : List Char)
    (mark : (c != '\n' && c != '\r' && c != '/' && !Scan.isInlineBlank c) = true) :
    Scan.piece? (c :: cs) = none := by
  simp only [Bool.and_eq_true, bne_iff_ne, ne_eq, Bool.not_eq_true'] at mark
  obtain ⟨⟨⟨noFeed, noReturn⟩, noSlash⟩, noBlank⟩ := mark
  exact (Scan.piece?_cons_eq_none_iff _ _).mpr
    ⟨noFeed, noReturn, noBlank, fun slash => absurd slash noSlash⟩

/-- A blank behind a token, in front of a text without trivia. -/
theorem trails_blank {after : List Char} (nothing : Scan.piece? after = none) :
    (Trivia.layout [' ']).Trails after := by
  have blank : ∀ c ∈ [' '], Scan.isInlineBlank c = true := by simp [Scan.isInlineBlank]
  refine ⟨⟨List.cons_ne_nil _ _, blank⟩, ?_, nothing⟩
  cases after with
  | nil => rfl
  | cons c cs => exact ((Scan.piece?_cons_eq_none_iff _ _).mp nothing).2.2.1

/-- A mark of one character is read wherever its trivia allows it. -/
theorem reads_mark {leading trailing : Trivia} {c : Char} {kind : Kind} {after : List Char}
    (alone : ∀ cs, Scan.lexemeTail c cs = (kind, 0))
    (leads : ∀ cs, leading.Leads (c :: cs)) (trails : trailing.Trails after) :
    (⟨leading, kind, [c], trailing⟩ : Token).Reads after := by
  refine ⟨List.cons_ne_nil _ _, leads _, ?_, trails⟩
  intro first rest same
  obtain ⟨rfl, rfl⟩ := List.cons.inj same
  exact alone _

/-- A mark without trivia in front. -/
theorem reads_bareMark {trailing : Trivia} {c : Char} {kind : Kind} {after : List Char}
    (alone : ∀ cs, Scan.lexemeTail c cs = (kind, 0))
    (mark : (c != '\n' && c != '\r' && c != '/' && !Scan.isInlineBlank c) = true)
    (trails : trailing.Trails after) : (⟨[], kind, [c], trailing⟩ : Token).Reads after :=
  reads_mark alone (fun _ => piece?_eq_none_of_mark _ mark) trails

theorem reads_closing {lineBreak : List Char}
    (isBreak : lineBreak = ['\n'] ∨ lineBreak = ['\r', '\n']) (after : List Char) :
    (closing lineBreak).Reads after := by
  refine reads_bareMark (fun _ => rfl) (by decide) ?_
  rcases isBreak with rfl | rfl
  · exact ⟨.inl rfl, fun carriage => absurd carriage (by decide), rfl⟩
  · exact ⟨.inr (.inl rfl), fun carriage => absurd carriage (by decide), rfl⟩

/-- A word ends in front of a character that is no part of an identifier. -/
theorem identifierTail_of_mark {c : Char} (cs : List Char)
    (mark : (Scan.isIdentifierPart c || c == '\\') = false) :
    Scan.identifierTail (c :: cs) = 0 := by
  rw [Bool.or_eq_false_iff, beq_eq_false_iff_ne] at mark
  refine (Scan.identifierTail_eq_zero_iff _).mpr ⟨mark.1, fun ds same => ?_⟩
  exact absurd (List.cons.inj same).1 mark.2

/-- The tokens of an annotation in front of the type are read back in front of a name. -/
theorem tiles_readOpening {leading : Trivia} {after rest : List Char}
    (leads : leading.Leads ('@' :: rest)) (nothing : Scan.piece? after = none) :
    TokenStream.Tiles (readOpening leading) after := by
  refine ⟨?_, ?_, ?_, ?_, ?_, ?_, ?_, trivial⟩
  · refine reads_mark (fun _ => rfl) (leads.of_head [] (by decide)) ?_
    exact piece?_eq_none_of_mark _ (by decide)
  · refine reads_word (by decide) (by decide) (by decide) ?_ ?_
    · exact piece?_eq_none_of_mark _ (by decide)
    · exact identifierTail_of_mark _ (by decide)
  · refine reads_bareMark (fun _ => rfl) (by decide) ?_
    exact piece?_eq_none_of_mark _ (by decide)
  · refine reads_word (by decide) (by decide) (by decide) ?_ ?_
    · exact trails_blank (piece?_eq_none_of_mark _ (by decide))
    · exact identifierTail_of_mark _ (by decide)
  · refine reads_bareMark (fun _ => rfl) (by decide) ?_
    exact piece?_eq_none_of_mark _ (by decide)
  · refine reads_word (by decide) (by decide) (by decide) ?_ ?_
    · exact piece?_eq_none_of_mark _ (by decide)
    · exact identifierTail_of_mark _ (by decide)
  · refine reads_bareMark (fun _ => rfl) (by decide) ?_
    exact trails_blank nothing

/-- The tokens of an annotation are read back, whatever stands behind them. -/
theorem tiles_readTokens {leading : Trivia} {name : List Token} {lineBreak after rest : List Char}
    (leads : leading.Leads ('@' :: rest)) (isName : NameTokens name)
    (tiles : TokenStream.Tiles name after)
    (isBreak : lineBreak = ['\n'] ∨ lineBreak = ['\r', '\n']) (behind : List Char) :
    TokenStream.Tiles (readTokens leading name lineBreak) behind := by
  have nameTiles := TokenStream.tiles_closedName isName tiles (lineBreak ++ behind)
  obtain ⟨first, rest, closedEq, bare, _, _⟩ := exists_closedName isName
  rw [readTokens, TokenStream.tiles_append, TokenStream.tiles_append]
  refine ⟨tiles_readOpening leads ?_, ?_, reads_closing isBreak behind, trivial⟩
  · rw [closedEq] at nameTiles
    have nothing := nameTiles.1.piece?_eq_none bare
    simpa [closedEq] using nothing
  · simpa using nameTiles

end ServiceAnnotator.Attachment
