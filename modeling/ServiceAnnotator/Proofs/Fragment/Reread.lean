import ServiceAnnotator.Proofs.Fragment.Value

/-!
# A synthesized annotation read back

The tokens of a synthesized mapping are read as they were printed, and the grammar takes them as the
fields that they were printed for. A name becomes the expression of its tokens, and a mapping
becomes a mapping constructor again.
-/

namespace ServiceAnnotator.Fragment

open Attachment (attachments_of_fields closing fieldValue_of_forall fields_of_fieldValue
  identifierTail_of_mark piece?_eq_none_of_mark reads_bareMark reads_closing runLength_rightBrace
  spacedColon trails_blank)
open Grammar (attachments depthBehind? fieldEnd fieldValue next runLength)
open TokenStream (Tiles tiles_append)

/-! ## Scanning -/

/-- Whether a text begins with neither trivia nor anything that goes on with a name. -/
structure EndsName (after : List Char) : Prop where
  noTrivia : Scan.piece? after = none
  stops : Scan.identifierTail after = 0

theorem endsName_of_mark {c : Char} (cs : List Char)
    (mark : (c != '\n' && c != '\r' && c != '/' && !Scan.isInlineBlank c) = true)
    (noPart : (Scan.isIdentifierPart c || c == '\\') = false) : EndsName (c :: cs) :=
  ⟨piece?_eq_none_of_mark cs mark, identifierTail_of_mark cs noPart⟩

/-- An identifier is read in front of every text that does not go on with it. -/
theorem Identifier.reads (identifier : Identifier) (trailing : Trivia) {after : List Char}
    (trails : trailing.Trails after) (stops : Scan.identifierTail (trailing.text ++ after) = 0) :
    (identifier.token.withTrailing trailing).Reads after := by
  have reads := (Tokenizer.readsAlone_iff (by decide)).mp identifier.alone
  exact reads.withTrailing rfl (reads.lexeme_ne_quote rfl rfl) trails stops

theorem Identifier.reads_token (identifier : Identifier) {after : List Char} (ends : EndsName after) :
    identifier.token.Reads after :=
  identifier.reads [] ends.noTrivia ends.stops

/-- A word without marks is an identifier, unless it is a keyword. -/
def Identifier.ofWord (first : Char) (rest : List Char) (starts : Attachment.startsWord first)
    (parts : rest.all Scan.isIdentifierPart) (noKeyword : Kind.ofKeyword? (first :: rest) = none) :
    Identifier where
  text := first :: rest
  alone := (Tokenizer.readsAlone_iff (by decide)).mpr
    (Attachment.reads_word starts parts noKeyword Scan.piece?_nil rfl)

/-- No trivia stands in front of a token that has none. -/
theorem piece?_of_tiles {first : Token} {rest : List Token} {after : List Char}
    (tiles : Tiles (first :: rest) after) (bare : first.leading = []) :
    Scan.piece? ((first :: rest).flatMap Token.text ++ after) = none := by
  have nothing := tiles.1.piece?_eq_none bare
  rwa [List.flatMap_cons, List.append_assoc]

theorem Name.tiles (name : Name) {after : List Char} (ends : EndsName after) :
    Tiles name.tokens after := by
  cases name with
  | simple name => exact ⟨name.reads_token ends, trivial⟩
  | qualified moduleName name =>
    have last : Tiles [name.token] after := ⟨name.reads_token ends, trivial⟩
    refine ⟨moduleName.reads_token (endsName_of_mark _ (by decide) (by decide)), ?_, last⟩
    exact reads_bareMark (fun _ => rfl) (by decide) (piece?_of_tiles last rfl)

/-- The first token of a value has no trivia in front. -/
theorem Value.exists_first (value : Value) :
    ∃ first rest, value.tokens = first :: rest ∧ first.leading = [] := by
  cases value with
  | name name => cases name <;> exact ⟨_, _, by rw [Value.tokens, Name.tokens], rfl⟩
  | mapping fields => exact ⟨_, _, by rw [Value.tokens], rfl⟩

/-- Behind a value there is a comma or a closing brace. -/
theorem Fields.endsName (fields : Fields) (behind : List Char) :
    EndsName ((fields.tokens [comma]).flatMap Token.text ++ '\x7d' :: behind) := by
  cases fields with
  | nil => exact endsName_of_mark _ (by decide) (by decide)
  | cons key value fields =>
    rw [Fields.tokens]
    exact endsName_of_mark _ (by decide) (by decide)

theorem Fields.piece?_eq_none {fields : Fields} {behind : List Char}
    (tiles : Tiles (fields.tokens []) ('\x7d' :: behind)) :
    Scan.piece? ((fields.tokens []).flatMap Token.text ++ '\x7d' :: behind) = none := by
  cases fields with
  | nil => exact piece?_eq_none_of_mark _ (by decide)
  | cons key value fields =>
    rw [Fields.tokens, List.nil_append] at tiles ⊢
    exact piece?_of_tiles tiles rfl

/-- Fields behind another one are read behind a comma. -/
theorem Fields.tiles_further {fields : Fields} {behind : List Char}
    (tiles : Tiles (fields.tokens []) ('\x7d' :: behind)) :
    Tiles (fields.tokens [comma]) ('\x7d' :: behind) := by
  have nothing := Fields.piece?_eq_none tiles
  cases fields with
  | nil =>
    rw [Fields.tokens]
    trivial
  | cons key value fields =>
    rw [Fields.tokens] at tiles nothing ⊢
    exact ⟨reads_bareMark (fun _ => rfl) (by decide) (trails_blank nothing), tiles⟩

mutual

/-- The tokens of a value are read in front of everything that may stand behind a value. -/
theorem Value.tiles (value : Value) {after : List Char} (ends : EndsName after) :
    Tiles value.tokens after := by
  cases value with
  | name name =>
    rw [Value.tokens]
    exact name.tiles ends
  | mapping fields =>
    have inside := fields.tiles after
    have close : rightBrace.Reads after :=
      reads_bareMark (fun _ => rfl) (by decide) ends.noTrivia
    rw [Value.tokens]
    refine ⟨?_, tiles_append.mpr ⟨inside, close, trivial⟩⟩
    refine reads_bareMark (fun _ => rfl) (by decide) ?_
    rw [List.flatMap_append, List.append_assoc]
    exact Fields.piece?_eq_none inside

/-- The tokens of fields are read in front of a closing brace. -/
theorem Fields.tiles (fields : Fields) (behind : List Char) :
    Tiles (fields.tokens []) ('\x7d' :: behind) := by
  cases fields with
  | nil =>
    rw [Fields.tokens]
    trivial
  | cons key value fields =>
    have here := value.tiles (fields.endsName behind)
    have further := Fields.tiles_further (fields.tiles behind)
    have both := tiles_append.mpr ⟨here, further⟩
    obtain ⟨first, rest, tokensEq, bare⟩ := value.exists_first
    have nothing : Scan.piece? ((value.tokens ++ fields.tokens [comma]).flatMap Token.text ++
        '\x7d' :: behind) = none := by
      rw [tokensEq, List.cons_append] at both ⊢
      exact piece?_of_tiles both bare
    rw [Fields.tokens, List.nil_append]
    refine ⟨key.reads_token (endsName_of_mark _ (by decide) (by decide)), ?_, both⟩
    exact reads_bareMark (fun _ => rfl) (by decide) (trails_blank nothing)

end

/-- The tokens in front of the fields are read in front of everything that is no trivia. -/
theorem tiles_opening (moduleName name : Identifier) {after : List Char}
    (nothing : Scan.piece? after = none) : Tiles (opening moduleName name) after := by
  have brace : Tiles [leftBrace] after :=
    ⟨reads_bareMark (fun _ => rfl) (by decide) nothing, trivial⟩
  have last : Tiles [name.token.withTrailing (Trivia.layout [' ']), leftBrace] after :=
    ⟨name.reads _ (trails_blank (piece?_of_tiles brace rfl)) (identifierTail_of_mark _ (by decide)),
      brace⟩
  have behindColon :
      Tiles (colon :: [name.token.withTrailing (Trivia.layout [' ']), leftBrace]) after :=
    ⟨reads_bareMark (fun _ => rfl) (by decide) (piece?_of_tiles last rfl), last⟩
  have behindSign : Tiles (moduleName.token ::
      colon :: [name.token.withTrailing (Trivia.layout [' ']), leftBrace]) after :=
    ⟨moduleName.reads_token (endsName_of_mark _ (by decide) (by decide)), behindColon⟩
  exact ⟨reads_bareMark (fun _ => rfl) (by decide) (piece?_of_tiles behindSign rfl), behindSign⟩

/-- The tokens of an annotation are scanned as they are, whatever stands behind them. -/
theorem tiles_attachment (moduleName name : Identifier) (fields : Fields) (behind : List Char) :
    Tiles (annotationTokens moduleName name fields) behind := by
  have inside := fields.tiles ('\n' :: behind)
  have nothing := Fields.piece?_eq_none inside
  rw [annotationTokens, tiles_append, tiles_append]
  refine ⟨tiles_opening moduleName name ?_, inside, reads_closing (.inl rfl) behind, trivial⟩
  rwa [List.flatMap_append, List.append_assoc]

/-! ## Parsing -/

mutual

/-- The tree that the tokens of a value are read to. -/
def Value.readTree : Value → Tree Token
  | .name name => .node .expression (name.tokens.map .leaf)
  | .mapping fields =>
    .node .mappingConstructor (.leaf leftBrace :: (fields.readTrees [] ++ [.leaf rightBrace]))

/-- The trees that the tokens of fields are read to, with what stands in front of the first one. -/
def Fields.readTrees (front : List Token) : Fields → List (Tree Token)
  | .nil => []
  | .cons key value fields =>
    front.map .leaf ++
      .node .specificField [.leaf key.token, .leaf spacedColon, value.readTree] ::
        fields.readTrees [comma]

end

/-- The tree that the tokens of an annotation are read to. -/
def readAttachment (moduleName name : Identifier) (fields : Fields) : Tree Token :=
  .node .annotationAttachment
    [.leaf (.bare .atSign "@".toList),
      .node .qualifiedNameReference [.leaf moduleName.token, .leaf colon,
        .leaf (name.token.withTrailing (Trivia.layout [' ']))],
      .node .mappingConstructor
        (.leaf leftBrace :: (fields.readTrees [] ++ [.leaf (closing ['\n'])]))]

/-- No token of a name ends the value of a field or is a bracket. -/
theorem Name.depthBehind?_tokens (name : Name) :
    ∀ token ∈ name.tokens, depthBehind? fieldEnd 0 token.kind = some 0 := by
  cases name <;> simp [Name.tokens, Identifier.token, colon, Token.bare] <;> decide

/-- Behind a value there is a comma or a closing brace, and no value goes on over it. -/
theorem Fields.runLength_eq_zero (fields : Fields) {close : Token} (isClose : close.kind = .rightBrace)
    (behind : List Token) : runLength fieldEnd 0 (fields.tokens [comma] ++ close :: behind) = 0 := by
  cases fields with
  | nil =>
    rw [Fields.tokens, List.nil_append]
    exact runLength_rightBrace isClose behind
  | cons key value fields =>
    rw [Fields.tokens, List.singleton_append, List.cons_append]
    rfl

/-- Fields behind another one are read as they are read in front, behind their comma. -/
theorem Fields.furtherFields_tokens {fields : Fields} {close : Token}
    (isClose : close.kind = .rightBrace) {behind : List Token}
    (inside : (Grammar.fields (fields.tokens [] ++ close :: behind)).val =
      ⟨fields.readTrees [] ++ [.leaf close], [], behind⟩) :
    (Grammar.furtherFields (fields.tokens [comma] ++ close :: behind)).val =
      ⟨fields.readTrees [comma] ++ [.leaf close], [], behind⟩ := by
  have closes : kind close = .rightBrace := isClose
  cases fields with
  | nil =>
    rw [Fields.tokens, Fields.readTrees, List.nil_append, List.nil_append,
      Grammar.val_furtherFields_cons, closes, if_neg (by decide), if_neg (by decide),
      Grammar.expect, if_pos closes]
  | cons key value fields =>
    have isComma : kind comma = .comma := rfl
    rw [Fields.tokens, Fields.readTrees] at inside ⊢
    rw [List.append_assoc, List.singleton_append, Grammar.val_furtherFields_cons, if_pos isComma]
    exact congrArg (Parsed.cons (.leaf comma)) inside

mutual

/-- The tokens of a value are read as the value. -/
theorem Value.fieldValue_tokens (value : Value) {behind : List Token}
    (ends : runLength fieldEnd 0 behind = 0) :
    (fieldValue (value.tokens ++ behind)).val = ⟨[value.readTree], [], behind⟩ := by
  cases value with
  | name name =>
    rw [Value.tokens, Value.readTree]
    have some : name.tokens ≠ [] := by cases name <;> simp [Name.tokens]
    exact fieldValue_of_forall some name.depthBehind?_tokens ends
  | mapping fields =>
    have inside := fields.fields_tokens rightBrace rfl behind
    have isBrace : next (leftBrace :: (fields.tokens [] ++ rightBrace :: behind)) = .leftBrace := rfl
    rw [Value.tokens, Value.readTree, List.cons_append, List.append_assoc, List.singleton_append,
      Grammar.val_fieldValue, if_pos isBrace, Parsed.andThen, Parsed.rest_tokens, List.drop_succ_cons,
      List.drop_zero, inside]
    rfl

/-- The tokens of fields and a closing brace are read as the fields. -/
theorem Fields.fields_tokens (fields : Fields) (close : Token) (isClose : close.kind = .rightBrace)
    (behind : List Token) :
    (Grammar.fields (fields.tokens [] ++ close :: behind)).val =
      ⟨fields.readTrees [] ++ [.leaf close], [], behind⟩ := by
  cases fields with
  | nil =>
    have closes : kind close = .rightBrace := isClose
    rw [Fields.tokens, Fields.readTrees, List.nil_append, Grammar.val_fields_cons, if_pos closes]
    rfl
  | cons key value fields =>
    have here := value.fieldValue_tokens (fields.runLength_eq_zero isClose behind)
    have further := Fields.furtherFields_tokens isClose (fields.fields_tokens close isClose behind)
    rw [Fields.tokens, Fields.readTrees, List.nil_append, List.cons_append, List.cons_append,
      List.append_assoc]
    exact fields_of_fieldValue rfl rfl here further

end

/-- The tokens of an annotation are read as the annotation. -/
theorem attachments_tokens (moduleName name : Identifier) (fields : Fields) {behind : List Token}
    (noSign : next behind ≠ .atSign) :
    attachments (annotationTokens moduleName name fields ++ behind) =
      ⟨[readAttachment moduleName name fields], [], behind⟩ := by
  have split : annotationTokens moduleName name fields ++ behind =
      opening moduleName name ++ (fields.tokens [] ++ closing ['\n'] :: behind) := by
    simp [annotationTokens]
  rw [split]
  exact attachments_of_fields rfl (fields.fields_tokens (closing ['\n']) rfl behind) noSign

/-- An annotation alone is the metadata of what stands behind it. -/
theorem metadata_tokens (moduleName name : Identifier) (fields : Fields) {behind : List Token}
    (noSign : next behind ≠ .atSign) :
    Grammar.metadata (annotationTokens moduleName name fields ++ behind) =
      ⟨[.node .metadata [readAttachment moduleName name fields]], [], behind⟩ := by
  have noLines : Grammar.documentation (annotationTokens moduleName name fields ++ behind) =
      .none _ := rfl
  have read := attachments_tokens moduleName name fields noSign
  rw [Grammar.metadata_eq, Grammar.metadataParts, noLines, Parsed.none_andThen, read]
  rfl

end ServiceAnnotator.Fragment
