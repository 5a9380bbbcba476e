import ServiceAnnotator.Grammar.Module

/-!
# Recursive rules as equations

The rules for the fields of a mapping constructor carry a bound on what they leave, which they need
to end. Without the bound each rule is an equation between what was read, and so is one token of a
run.
-/

namespace ServiceAnnotator

@[simp] theorem Parsed.none_andThen {α : Type} (tokens : List α) (rule : List α → Parsed α) :
    (Parsed.none tokens).andThen rule = rule tokens := rfl

/-- Of three rules one behind the other the last two may be taken together. -/
theorem Parsed.andThen_assoc {α : Type} (parsed : Parsed α) (second third : List α → Parsed α) :
    (parsed.andThen second).andThen third =
      parsed.andThen fun rest => (second rest).andThen third := by
  simp [andThen]

namespace Grammar

variable {α : Type} [Kinded α]

/-- The depth of brackets behind a token of a run, unless the run ends in front of it. -/
def depthBehind? (stop : KindSet) (depth : Nat) (kind : Kind) : Option Nat :=
  if depth = 0 ∧ stop.contains kind then none
  else
    match bracket kind with
    | .opens => some (depth + 1)
    | .closes => if depth = 0 then none else some (depth - 1)
    | .neither => some depth

/-- A run takes its tokens one by one. -/
theorem runLength_cons (stop : KindSet) (depth : Nat) (token : α) (tokens : List α) :
    runLength stop depth (token :: tokens) =
      (depthBehind? stop depth (Kinded.kind token)).elim 0
        fun behind => 1 + runLength stop behind tokens := by
  rw [runLength, depthBehind?]
  split
  · rfl
  · cases bracket (Kinded.kind token) with
    | opens => rfl
    | closes =>
      by_cases outside : depth = 0
      · simp [outside]
      · simp [outside]
    | neither => rfl

/-- A token that is expected is taken or reported. -/
theorem expect_eq {kind : Kind} (some : kind ≠ .endOfFile) (tokens : List α) :
    expect kind tokens =
      if next tokens = kind then Parsed.tokens 1 tokens else .problem (.expected kind) tokens := by
  cases tokens with
  | nil => rw [next, if_neg some.symm, expect]
  | cons first rest => rfl

/-- Recovery takes the tokens that it skips into a node, if there are any. -/
theorem recover_eq (problem : Problem) (stop : KindSet) (tokens : List α) :
    recover problem stop tokens =
      (if (tokens.takeWhile fun token => !stop.contains (Kinded.kind token)).length = 0 then
        Parsed.none tokens
      else
        (Parsed.tokens (tokens.takeWhile fun token => !stop.contains (Kinded.kind token)).length
          tokens).wrap .error).report problem tokens.length := by
  simp only [recover]
  split
  · rename_i nothing
    rw [nothing]
    rfl
  · rfl

@[simp] theorem val_fields_nil : (fields ([] : List α)).val = expect .rightBrace [] := by
  rw [fields]

theorem val_fields_cons (first : α) (rest : List α) :
    (fields (first :: rest)).val =
      if Kinded.kind first = .rightBrace then ⟨[.leaf first], [], rest⟩
      else if Kinded.kind first = .comma then
        ((fields rest).val.cons (.node .error [.leaf first])).report .strayComma (rest.length + 1)
      else if fieldStart.contains (Kinded.kind first) then
        (field first rest).val.andThen fun behind => (furtherFields behind).val
      else (Parsed.problem .expectedFieldName (first :: rest)).andThen (expect .rightBrace) := by
  rw [fields]
  split
  · rfl
  · split
    · rfl
    · split
      · rfl
      · rfl

@[simp] theorem val_furtherFields_nil :
    (furtherFields ([] : List α)).val = expect .rightBrace [] := by
  rw [furtherFields]

theorem val_furtherFields_cons (first : α) (rest : List α) :
    (furtherFields (first :: rest)).val =
      if Kinded.kind first = .comma then (fields rest).val.cons (.leaf first)
      else if fieldStart.contains (Kinded.kind first) then
        (fields (first :: rest)).val.report (.expected .comma) (rest.length + 1)
      else expect .rightBrace (first :: rest) := by
  rw [furtherFields]
  split
  · rfl
  · split
    · rfl
    · rfl

theorem val_furtherFields (tokens : List α) :
    (furtherFields tokens).val =
      if next tokens = .comma then
        (Parsed.tokens 1 tokens).andThen fun behind => (fields behind).val
      else if fieldStart.contains (next tokens) then
        (Parsed.problem (.expected .comma) tokens).andThen fun behind => (fields behind).val
      else expect .rightBrace tokens := by
  cases tokens with
  | nil =>
    rw [val_furtherFields_nil, next, if_neg (by decide), if_neg (by decide)]
  | cons first rest => rw [val_furtherFields_cons]; rfl

theorem val_field (first : α) (rest : List α) :
    (field first rest).val =
      if Kinded.kind first = .ellipsis then
        ((expression fieldEnd rest).cons (.leaf first)).wrap .spreadField
      else if next rest = .colon then
        (((Parsed.tokens 1 rest).andThen fun behind => (fieldValue behind).val).cons
          (.leaf first)).wrap .specificField
      else (Parsed.none rest).cons (.leaf first) |>.wrap .specificField := by
  rw [field.eq_def]
  split
  · rfl
  · cases rest with
    | nil => rfl
    | cons second behind =>
      rw [next]
      by_cases colon : Kinded.kind second = .colon
      · rw [if_pos colon]
        simp only [colon, ↓reduceIte]
        rfl
      · rw [if_neg colon]
        simp only [colon, ↓reduceIte]
        rfl

theorem val_fieldValue (tokens : List α) :
    (fieldValue tokens).val =
      if next tokens = .leftBrace then
        ((Parsed.tokens 1 tokens).andThen fun behind => (fields behind).val).wrap
          .mappingConstructor
      else expression fieldEnd tokens := by
  rw [fieldValue.eq_def]
  cases tokens with
  | nil => rfl
  | cons first rest =>
    rw [next]
    by_cases brace : Kinded.kind first = .leftBrace
    · rw [if_pos brace]
      simp only [brace, ↓reduceIte]
      rfl
    · rw [if_neg brace]
      simp only [brace, ↓reduceIte]

/-- Where the next token has a kind, there is a next token. -/
theorem exists_cons_of_next {tokens : List α} {kind : Kind} (found : next tokens = kind)
    (some : kind ≠ .endOfFile) :
    ∃ first rest, tokens = first :: rest ∧ Kinded.kind first = kind := by
  cases tokens with
  | nil => exact absurd found.symm some
  | cons first rest => exact ⟨first, rest, rfl, found⟩

theorem length_sub_one_lt {tokens : List α} {kind : Kind} (found : next tokens = kind)
    (some : kind ≠ .endOfFile) : tokens.length - 1 < tokens.length := by
  obtain ⟨first, rest, rfl, -⟩ := exists_cons_of_next found some
  simp

theorem mapping?_eq (tokens : List α) :
    mapping? tokens =
      if next tokens = .leftBrace then
        ((Parsed.tokens 1 tokens).andThen fun behind => (fields behind).val).wrap
          .mappingConstructor
      else .none tokens := by
  cases tokens with
  | nil => rfl
  | cons first rest =>
    rw [mapping?, next]
    by_cases brace : Kinded.kind first = .leftBrace
    · rw [if_pos brace, if_pos brace]
      rfl
    · rw [if_neg brace, if_neg brace]

/-- Listener expressions behind a comma. -/
def furtherListeners (tokens : List α) : Parsed α :=
  if next tokens = .comma then (Parsed.tokens 1 tokens).andThen listeners else .none tokens

/-- A listener expression, and more behind a comma. -/
theorem listeners_eq (tokens : List α) :
    listeners tokens =
      if runLength listenerEnd 0 tokens = 0 then .problem .expectedExpression tokens
      else
        ((Parsed.tokens (runLength listenerEnd 0 tokens) tokens).wrap .expression).andThen
          furtherListeners := by
  rw [listeners]
  split
  · rfl
  · split
    · rename_i behind
      simp [Parsed.andThen, Parsed.wrap, Parsed.tokens, Parsed.none, furtherListeners, behind, next]
    · rename_i separator rest behind
      by_cases comma : Kinded.kind separator = .comma
      · simp [Parsed.andThen, Parsed.wrap, Parsed.tokens, Parsed.cons, furtherListeners, behind,
          next, comma]
      · simp [Parsed.andThen, Parsed.wrap, Parsed.tokens, Parsed.none, furtherListeners, behind,
          next, comma]

/-- Annotation attachments are read one by one. -/
theorem attachments_cons (sign : α) (tokens : List α) :
    attachments (sign :: tokens) =
      if Kinded.kind sign = .atSign then (attachment sign tokens).andThen attachments
      else .none (sign :: tokens) := by
  rw [attachments]
  rfl

/-- One slash of a resource path and the name behind it. -/
theorem pathLength_cons (first : α) (rest : List α) :
    pathLength (first :: rest) =
      if Kinded.kind first = .slash then
        if next rest = .identifier then 2 + pathLength (rest.drop 1) else 1 + pathLength rest
      else 0 := by
  cases rest with
  | nil => simp [pathLength, next]
  | cons name rest => simp [pathLength, next]

/-- What a run makes of one token, given what it makes of the tokens behind. -/
theorem plainRun_cons (kind : Kind) (depth : Nat) (token : α) (tokens : List α) :
    plainRun kind depth (token :: tokens) =
      if Kinded.kind token = .semicolon ∧ depth = 0 then (kind, ⟨[.leaf token], [], tokens⟩)
      else if Kinded.kind token = .classKw ∧ depth = 0 ∧ kind = .moduleVarDeclaration then
        (plainRun .classDefinition depth tokens).map id (Parsed.cons (.leaf token))
      else
        match bracket (Kinded.kind token) with
        | .opens => (plainRun kind (depth + 1) tokens).map id (Parsed.cons (.leaf token))
        | .closes =>
          if depth = 0 then
            (plainRun kind 0 tokens).map id fun parsed =>
              (parsed.cons (.node .error [.leaf token])).report .unmatchedCloser
                (tokens.length + 1)
          else if Kinded.kind token = .rightBrace ∧ depth = 1 ∧ endsDeclaration (next tokens) then
            (kind, ⟨[.leaf token], [], tokens⟩)
          else (plainRun kind (depth - 1) tokens).map id (Parsed.cons (.leaf token))
        | .neither => (plainRun kind depth tokens).map id (Parsed.cons (.leaf token)) := by
  rw [plainRun]
  rfl

/-- A module is read item by item. -/
theorem items_cons (first : α) (rest : List α) :
    items (first :: rest) =
      if Kinded.kind first = .importKw then (importDeclaration first rest).andThen items
      else if startsMember (Kinded.kind first) then (member (first :: rest)).andThen items
      else ((items rest).cons (.node .error [.leaf first])).report
        (if Kinded.kind first = .semicolon then .straySemicolon else .expectedModuleLevelDeclaration)
        (rest.length + 1) := by
  rw [items]
  rfl

/-! ## Metadata and members -/

theorem attachments_of_next_ne {tokens : List α} (noSign : next tokens ≠ .atSign) :
    attachments tokens = .none tokens := by
  cases tokens with
  | nil => rw [attachments]
  | cons first rest =>
    rw [next] at noSign
    rw [attachments_cons, if_neg noSign]

/-- Documentation lines and annotation attachments without a node around them. -/
def metadataParts (tokens : List α) : Parsed α := (documentation tokens).andThen attachments

theorem metadata_eq (tokens : List α) :
    metadata tokens =
      if (metadataParts tokens).elements.isEmpty then .none tokens
      else (metadataParts tokens).wrap .metadata := rfl

/-- Without elements metadata has taken nothing. -/
theorem metadataParts_eq_none {tokens : List α} (empty : (metadataParts tokens).elements = []) :
    metadataParts tokens = .none tokens := by
  rw [metadataParts, Parsed.andThen, List.append_eq_nil_iff] at empty
  have noLines : documentation tokens = .none tokens := by
    have nothing := empty.1
    simp only [documentation] at nothing ⊢
    split
    · rfl
    · rename_i lines
      rw [if_neg lines] at nothing
      cases nothing
  have noSign : next tokens ≠ .atSign := by
    have nothing := empty.2
    rw [noLines, Parsed.rest_none] at nothing
    intro isSign
    cases tokens with
    | nil => cases isSign
    | cons sign rest =>
      rw [next] at isSign
      rw [attachments_cons, if_pos isSign] at nothing
      cases nothing
  rw [metadataParts, noLines, Parsed.andThen, Parsed.rest_none, attachments_of_next_ne noSign]
  rfl

/-- Qualifiers and the declaration behind them, with its kind. -/
def qualified (tokens : List α) : Kind × Parsed α :=
  (declaration (tokens.drop (countIn qualifiers tokens))).map id fun parsed =>
    (Parsed.tokens (countIn qualifiers tokens) tokens).andThen fun _ => parsed

theorem rest_qualified (tokens : List α) :
    (qualified tokens).2.rest =
      (declaration (tokens.drop (countIn qualifiers tokens))).2.rest := rfl

theorem member_eq (tokens : List α) :
    member tokens =
      ((metadata tokens).andThen fun behind => (qualified behind).2).wrap
        (qualified (metadata tokens).rest).1 := by
  simp [member, qualified, Parsed.andThen, Parsed.wrap, List.append_assoc]

/-- A run of tokens keeps its kind or turns out to be a class. -/
theorem fst_plainRun (kind : Kind) (depth : Nat) (tokens : List α) :
    (plainRun kind depth tokens).1 = kind ∨ (plainRun kind depth tokens).1 = .classDefinition := by
  induction tokens generalizing kind depth with
  | nil => exact .inl rfl
  | cons token tokens ih =>
    rw [plainRun_cons]
    split
    · exact .inl rfl
    · split
      · exact .inr (Or.elim (ih .classDefinition depth) id id)
      · split
        · exact ih _ _
        · split
          · exact ih _ _
          · split
            · exact .inl rfl
            · exact ih _ _
        · exact ih _ _

end Grammar

end ServiceAnnotator
