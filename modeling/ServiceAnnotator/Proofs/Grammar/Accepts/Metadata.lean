import ServiceAnnotator.Proofs.Grammar.Accepts.Run

/-!
# Names, mapping constructors and metadata

The rules of what stands in front of a declaration accept the languages of these constructs. Fields
of a mapping constructor nest, so that their rules are followed by the number of tokens.
-/

open scoped Computability

namespace ServiceAnnotator.Grammar

open Phrase (IsField IsFields IsValue Leads StartsWith StopsRun fieldList keys leads_any mapping name
  oneOf optional startsWith_token token)

/-! ## Names -/

theorem not_clean_recover (problem : Problem) (stop : KindSet) (tokens rest : List Kind) :
    ¬(recover problem stop tokens).Clean rest := by
  rw [recover_eq]
  exact Parsed.not_clean_report _ _

/-- A colon and the identifier behind it, if there is a colon. -/
def nameTail (tokens : List Kind) : Parsed Kind :=
  if next tokens = .colon then (expect .colon tokens).andThen (expect .identifier)
  else .none tokens

theorem accepts_nameTail :
    Accepts nameTail (optional (token .colon * token .identifier)) (· ≠ .colon) := by
  have accepts : Accepts (fun tokens => (expect .colon tokens).andThen (expect .identifier))
      (token .colon * token .identifier) fun _ => True :=
    (accepts_expect (by decide)).andThen (accepts_expect (by decide)) leads_any
  refine accepts.optional ((startsWith_token _).mul _) (fun _ _ => trivial) (fun _ => id) ?_
  intro tokens rest
  simp [nameTail, Parsed.clean_ite]

theorem accepts_nameReference (recovery : KindSet) :
    Accepts (nameReference recovery) name (· ≠ .colon) := by
  refine ((accepts_expect (by decide)).andThen accepts_nameTail leads_any).congr
    fun tokens rest => ?_
  rw [nameReference_eq, Parsed.clean_ite]
  simp [not_clean_recover, namedReference, nameTail, Parsed.clean_ite, -List.drop_one]

/-! ## Fields of a mapping constructor -/

/-- Whether the fields in front of any tokens are read without a report exactly where they are
fields. -/
def ReadsFields (tokens : List Kind) : Prop :=
  ∀ rest, (fields tokens).val.Clean rest ↔ ∃ front, IsFields front ∧ front ++ rest = tokens

/-- A value in front of the end of a field is read without a report exactly where it is one, if
fields are wherever fewer tokens are left. -/
theorem clean_fieldValue_iff {tokens rest : List Kind}
    (inner : ∀ fewer : List Kind, fewer.length < tokens.length → ReadsFields fewer)
    (stops : StopsRun Phrase.fieldEnd (next rest)) :
    (fieldValue tokens).val.Clean rest ↔ ∃ front, IsValue front ∧ front ++ rest = tokens := by
  rw [val_fieldValue, Parsed.clean_ite, Parsed.clean_wrap, Parsed.clean_andThen]
  constructor
  · rintro (⟨brace, _, clean, within⟩ | ⟨noBrace, clean⟩)
    · obtain ⟨_, behind, rfl, rfl⟩ := exists_cons_of_next brace (by decide)
      obtain rfl := (Parsed.clean_tokens 1 _).mp clean
      obtain ⟨front, areFields, rfl⟩ := (inner behind (Nat.lt_succ_self _) rest).mp within
      exact ⟨.leftBrace :: front, .mapping (.braces areFields), rfl⟩
    · obtain ⟨front, isRun, rfl⟩ := (accepts_expression (by decide) tokens rest stops).mp clean
      exact ⟨front, .expression isRun (isRun.next_append rest ▸ noBrace), rfl⟩
  · rintro ⟨front, isValue, rfl⟩
    cases isValue with
    | mapping isMapping =>
      obtain ⟨areFields⟩ := isMapping
      refine .inl ⟨rfl, _, ⟨rfl, rfl⟩, ?_⟩
      exact (inner _ (Nat.lt_succ_self _) rest).mpr ⟨_, areFields, rfl⟩
    | expression isRun noBrace =>
      have clean := (accepts_expression (by decide) _ rest stops).mpr ⟨front, isRun, rfl⟩
      exact .inr ⟨isRun.next_append rest ▸ noBrace, clean⟩

/-- Kinds in front of which a field ends. -/
def EndsField (kind : Kind) : Prop := kind = .comma ∨ kind = .rightBrace

theorem fieldStart_iff (kind : Kind) :
    fieldStart.contains kind ↔ kind = .ellipsis ∨ kind ∈ keys := by
  simp [fieldStart, KindSet.ofList, keys, or_comm, or_left_comm]

/-- The same for a field behind its first token. -/
theorem clean_field_iff {first : Kind} {behind rest : List Kind}
    (inner : ∀ fewer : List Kind, fewer.length < behind.length → ReadsFields fewer)
    (starts : fieldStart.contains first) (ends : EndsField (next rest)) :
    (field first behind).val.Clean rest ↔
      ∃ front, IsField (first :: front) ∧ front ++ rest = behind := by
  have noColon : next rest ≠ .colon := by
    rcases ends with comma | brace
    · simp [comma]
    · simp [brace]
  have stops : StopsRun Phrase.fieldEnd (next rest) := by
    rcases ends with comma | brace
    · exact .inl (by rw [comma]; decide)
    · exact .inl (by rw [brace]; decide)
  rw [val_field, kind_self]
  simp only [Parsed.clean_ite, Parsed.clean_wrap, Parsed.clean_cons, Parsed.clean_andThen,
    Parsed.clean_none]
  constructor
  · rintro (⟨rfl, clean⟩ | ⟨noSpread, ⟨colon, _, clean, within⟩ | ⟨_, rfl⟩⟩)
    · obtain ⟨front, isRun, rfl⟩ := (accepts_expression (by decide) behind rest stops).mp clean
      exact ⟨front, .spread isRun, rfl⟩
    · have isKey := ((fieldStart_iff first).mp starts).resolve_left noSpread
      obtain ⟨_, value, rfl, rfl⟩ := exists_cons_of_next colon (by decide)
      obtain rfl := (Parsed.clean_tokens 1 _).mp clean
      have innerValue (fewer : List Kind) (bound : fewer.length < value.length) :=
        inner fewer (Nat.lt_succ_of_lt bound)
      obtain ⟨front, isValue, rfl⟩ := (clean_fieldValue_iff innerValue stops).mp within
      exact ⟨.colon :: front, .value isKey isValue, rfl⟩
    · have isKey := ((fieldStart_iff first).mp starts).resolve_left noSpread
      exact ⟨[], .key isKey, rfl⟩
  · have noSpread {key : Kind} (isKey : key ∈ keys) : key ≠ .ellipsis := by
      rintro rfl
      exact absurd isKey (by decide)
    rintro ⟨front, isField, rfl⟩
    cases isField with
    | key isKey => exact .inr ⟨noSpread isKey, .inr ⟨noColon, rfl⟩⟩
    | value isKey isValue =>
      refine .inr ⟨noSpread isKey, .inl ⟨rfl, _, ⟨rfl, rfl⟩, ?_⟩⟩
      refine (clean_fieldValue_iff ?_ stops).mpr ⟨_, isValue, rfl⟩
      exact fun fewer bound => inner fewer (Nat.lt_succ_of_lt bound)
    | spread isRun =>
      exact .inl ⟨rfl, (accepts_expression (by decide) _ rest stops).mpr ⟨front, isRun, rfl⟩⟩

theorem clean_furtherFields_iff (tokens rest : List Kind) :
    (furtherFields tokens).val.Clean rest ↔
      (next tokens = .comma ∧ (fields (tokens.drop 1)).val.Clean rest) ∨
        (next tokens = .rightBrace ∧ tokens.drop 1 = rest) := by
  have noStart (brace : next tokens = .rightBrace) :
      next tokens ≠ .comma ∧ ¬fieldStart.contains (next tokens) := by
    rw [brace]
    decide
  rw [val_furtherFields, Parsed.clean_ite, Parsed.clean_ite, clean_expect (by decide)]
  simp only [Parsed.clean_andThen, Parsed.clean_tokens, Parsed.not_clean_problem, exists_eq_left',
    false_and, exists_false, and_false, false_or]
  constructor
  · rintro (comma | ⟨_, _, brace⟩)
    · exact .inl comma
    · exact .inr brace
  · rintro (comma | brace)
    · exact .inl comma
    · exact .inr ⟨(noStart brace.1).1, (noStart brace.1).2, brace⟩

theorem clean_fields_cons_iff (first : Kind) (behind rest : List Kind) :
    (fields (first :: behind)).val.Clean rest ↔
      (first = .rightBrace ∧ behind = rest) ∨
        (fieldStart.contains first ∧
          ∃ mid, (field first behind).val.Clean mid ∧ (furtherFields mid).val.Clean rest) := by
  have noOther (starts : fieldStart.contains first) : first ≠ .rightBrace ∧ first ≠ .comma := by
    constructor
    · rintro rfl
      exact absurd starts (by decide)
    · rintro rfl
      exact absurd starts (by decide)
  rw [val_fields_cons, kind_self]
  simp only [Parsed.clean_ite, Parsed.clean_andThen, Parsed.not_clean_problem,
    Parsed.not_clean_report, false_and, exists_false, and_false, false_or, or_false]
  constructor
  · rintro (⟨brace, _, left⟩ | ⟨_, _, starts, clean⟩)
    · exact .inl ⟨brace, left⟩
    · exact .inr ⟨starts, clean⟩
  · rintro (⟨brace, left⟩ | ⟨starts, clean⟩)
    · exact .inl ⟨brace, rfl, left⟩
    · exact .inr ⟨(noOther starts).1, (noOther starts).2, starts, clean⟩

theorem exists_cons_of_isField {phrase : List Kind} (isField : IsField phrase) :
    ∃ first front, phrase = first :: front ∧ fieldStart.contains first := by
  cases isField with
  | key isKey => exact ⟨_, _, rfl, (fieldStart_iff _).mpr (.inr isKey)⟩
  | value isKey _ => exact ⟨_, _, rfl, (fieldStart_iff _).mpr (.inr isKey)⟩
  | spread _ => exact ⟨_, _, rfl, (fieldStart_iff _).mpr (.inl rfl)⟩

theorem exists_cons_of_isFields {phrase : List Kind} (areFields : IsFields phrase) :
    ∃ first behind, phrase = first :: behind := by
  cases areFields with
  | close => exact ⟨_, _, rfl⟩
  | last isField =>
    obtain ⟨first, front, rfl, _⟩ := exists_cons_of_isField isField
    exact ⟨_, _, rfl⟩
  | comma isField _ =>
    obtain ⟨first, front, rfl, _⟩ := exists_cons_of_isField isField
    exact ⟨_, _, rfl⟩

theorem readsFields_nil : ReadsFields [] := by
  intro rest
  rw [val_fields_nil, clean_expect (by decide)]
  refine iff_of_false (fun clean => absurd clean.1 (by decide)) ?_
  rintro ⟨front, areFields, split⟩
  obtain ⟨first, behind, rfl⟩ := exists_cons_of_isFields areFields
  cases split

/-- Fields are read like the language of fields if those nested in the first one and those behind it
are. -/
theorem readsFields_cons {first : Kind} {behind : List Kind}
    (inner : ∀ fewer : List Kind, fewer.length < (first :: behind).length → ReadsFields fewer) :
    ReadsFields (first :: behind) := by
  intro rest
  have innerField (fewer : List Kind) (bound : fewer.length < behind.length) :=
    inner fewer (Nat.lt_succ_of_lt bound)
  rw [clean_fields_cons_iff]
  simp only [clean_furtherFields_iff]
  constructor
  · rintro (⟨rfl, rfl⟩ | ⟨starts, mid, cleanField, ⟨comma, cleanMore⟩ | ⟨brace, rfl⟩⟩)
    · exact ⟨[.rightBrace], .close, rfl⟩
    · obtain ⟨_, more, rfl, rfl⟩ := exists_cons_of_next comma (by decide)
      obtain ⟨front, isField, rfl⟩ := (clean_field_iff innerField starts (.inl rfl)).mp cleanField
      have shorter : more.length < (first :: (front ++ .comma :: more)).length := by
        simp only [List.length_cons, List.length_append]
        omega
      obtain ⟨others, areFields, rfl⟩ := (inner more shorter rest).mp cleanMore
      exact ⟨_, .comma isField areFields, by simp⟩
    · obtain ⟨_, _, rfl, rfl⟩ := exists_cons_of_next brace (by decide)
      obtain ⟨front, isField, rfl⟩ := (clean_field_iff innerField starts (.inr rfl)).mp cleanField
      exact ⟨_, .last isField, by simp⟩
  · rintro ⟨phrase, areFields, split⟩
    cases areFields with
    | close =>
      obtain ⟨rfl, rfl⟩ := List.cons.inj split
      exact .inl ⟨rfl, rfl⟩
    | last isField =>
      obtain ⟨_, front, rfl, starts⟩ := exists_cons_of_isField isField
      obtain ⟨rfl, splitBehind⟩ := List.cons.inj split
      refine .inr ⟨starts, .rightBrace :: rest, ?_, .inr ⟨rfl, rfl⟩⟩
      refine (clean_field_iff innerField starts (.inr rfl)).mpr ⟨front, isField, ?_⟩
      simpa using splitBehind
    | @comma _ others isField areFields =>
      obtain ⟨_, front, rfl, starts⟩ := exists_cons_of_isField isField
      obtain ⟨rfl, splitBehind⟩ := List.cons.inj split
      have shorter : (others ++ rest).length < behind.length + 1 := by
        rw [← splitBehind]
        simp only [List.length_append, List.append_eq, List.length_cons]
        omega
      refine .inr ⟨starts, .comma :: others ++ rest, ?_, .inl ⟨rfl, ?_⟩⟩
      · refine (clean_field_iff innerField starts (.inl rfl)).mpr ⟨front, isField, ?_⟩
        simpa using splitBehind
      · exact (inner _ shorter rest).mpr ⟨others, areFields, rfl⟩

theorem readsFields : ∀ tokens, ReadsFields tokens
  | [] => readsFields_nil
  | _ :: _ => readsFields_cons fun fewer _ => readsFields fewer
termination_by tokens => tokens.length
decreasing_by assumption

theorem mapping_eq : mapping = token .leftBrace * fieldList := by
  ext phrase
  constructor
  · rintro ⟨areFields⟩
    exact ⟨_, rfl, _, areFields, rfl⟩
  · rintro ⟨_, rfl, front, areFields, rfl⟩
    exact .braces areFields

theorem startsWith_mapping : StartsWith mapping (· = .leftBrace) :=
  mapping_eq ▸ (startsWith_token _).mul _

theorem accepts_mapping? : Accepts mapping? (optional mapping) (· ≠ .leftBrace) := by
  have acceptsFields : Accepts (fun tokens => (fields tokens).val) fieldList fun _ => True :=
    fun tokens rest _ => readsFields tokens rest
  have accepts : Accepts (fun tokens => (expect .leftBrace tokens).andThen fun tokens =>
      (fields tokens).val) mapping fun _ => True :=
    mapping_eq ▸ (accepts_expect (by decide)).andThen acceptsFields leads_any
  refine accepts.optional startsWith_mapping (fun _ _ => trivial) (fun _ => id) ?_
  intro tokens rest
  rw [mapping?_eq, Parsed.clean_ite]
  simp

/-! ## Metadata -/

theorem accepts_attachment (sign : Kind) :
    Accepts (attachment sign) (name * optional mapping) fun kind =>
      kind ≠ .leftBrace ∧ kind ≠ .colon := by
  have leads : Leads (optional mapping) (fun kind => kind ≠ .leftBrace ∧ kind ≠ .colon)
      (· ≠ .colon) :=
    (startsWith_mapping.leads (by rintro _ rfl; simp)).optional fun _ => And.right
  exact ((accepts_nameReference attachmentRecovery).andThen
    (accepts_mapping?.imp fun _ => And.left) leads).congr fun _ _ => Iff.rfl

theorem startsWith_attachment : StartsWith Phrase.attachment (· = .atSign) :=
  ((startsWith_token _).mul _).mul _

/-- Kinds in front of which attachments end. -/
def EndsAttachments (kind : Kind) : Prop := kind ∉ [.atSign, .leftBrace, .colon]

theorem accepts_attachments : Accepts attachments Phrase.attachment∗ EndsAttachments := by
  have accepts : Accepts (fun tokens => (expect .atSign tokens).andThen (attachment .atSign))
      Phrase.attachment fun kind => kind = .atSign ∨ EndsAttachments kind := by
    rw [Phrase.attachment, mul_assoc]
    refine (accepts_expect (by decide)).andThen ((accepts_attachment _).imp ?_) leads_any
    rintro kind (rfl | ends)
    · decide
    · simp [EndsAttachments] at ends
      exact ends.2
  refine accepts.kstar startsWith_attachment ?_ ?_
  · rintro _ ends rfl
    exact ends (by decide)
  · intro tokens rest
    by_cases isSign : next tokens = .atSign
    · obtain ⟨_, behind, rfl, rfl⟩ := exists_cons_of_next isSign (by decide)
      rw [attachments_cons, kind_self, if_pos rfl]
      simp [isSign]
    · rw [attachments_of_next_ne isSign]
      simp [isSign]

/-! ## Documentation and qualifiers -/

theorem cons_mem_kstar_oneOf_iff (kinds : List Kind) (kind : Kind) (phrase : List Kind) :
    kind :: phrase ∈ (oneOf kinds)∗ ↔ kind ∈ kinds ∧ phrase ∈ (oneOf kinds)∗ := by
  rw [Phrase.mem_kstar_iff]
  constructor
  · rintro (empty | ⟨_, ⟨first, isOne, rfl⟩, back, inBack, split⟩)
    · cases empty
    · obtain ⟨rfl, rfl⟩ := List.cons.inj split
      exact ⟨isOne, inBack⟩
  · rintro ⟨isOne, inBack⟩
    exact .inr ⟨[kind], ⟨kind, isOne, rfl⟩, phrase, inBack, rfl⟩

/-- Counting the tokens in front that are of certain kinds takes all of them. -/
theorem accepts_countIn (kinds : List Kind) :
    Accepts (fun tokens => Parsed.tokens (countIn (.ofList kinds) tokens) tokens) (oneOf kinds)∗
      (· ∉ kinds) := by
  intro tokens rest stands
  rw [Parsed.clean_tokens]
  induction tokens with
  | nil =>
    rw [List.drop_nil]
    constructor
    · rintro rfl
      exact ⟨[], Language.nil_mem_kstar _, rfl⟩
    · rintro ⟨front, _, split⟩
      exact (List.append_eq_nil_iff.mp split).2.symm
  | cons first behind ih =>
    have isOne : (KindSet.ofList kinds).contains (Kinded.kind first) = true ↔ first ∈ kinds :=
      List.contains_iff_mem
    rw [countIn_cons]
    by_cases counts : first ∈ kinds
    · rw [if_pos (isOne.mpr counts), Nat.add_comm, List.drop_succ_cons, ih]
      constructor
      · rintro ⟨front, inFront, rfl⟩
        exact ⟨first :: front, (cons_mem_kstar_oneOf_iff ..).mpr ⟨counts, inFront⟩, rfl⟩
      · rintro ⟨front, inFront, split⟩
        cases front with
        | nil =>
          obtain rfl : rest = first :: behind := split
          exact absurd counts stands
        | cons _ front =>
          obtain ⟨rfl, rfl⟩ := List.cons.inj split
          exact ⟨front, ((cons_mem_kstar_oneOf_iff ..).mp inFront).2, rfl⟩
    · rw [if_neg (counts ∘ isOne.mp), List.drop_zero]
      constructor
      · rintro rfl
        exact ⟨[], Language.nil_mem_kstar _, rfl⟩
      · rintro ⟨front, inFront, split⟩
        cases front with
        | nil => exact split.symm
        | cons _ front =>
          obtain ⟨rfl, -⟩ := List.cons.inj split
          exact absurd ((cons_mem_kstar_oneOf_iff ..).mp inFront).1 counts

theorem oneOf_singleton (kind : Kind) : oneOf [kind] = token kind := by
  ext phrase
  constructor
  · rintro ⟨other, isOne, rfl⟩
    rw [List.mem_singleton.mp isOne]
    rfl
  · rintro rfl
    exact ⟨kind, List.mem_singleton_self kind, rfl⟩

theorem accepts_documentation :
    Accepts documentation (token .documentationLine)∗ (· ≠ .documentationLine) := by
  have accepts := accepts_countIn [.documentationLine]
  rw [oneOf_singleton] at accepts
  refine (accepts.imp fun _ other => by simpa using other).congr fun tokens rest => ?_
  rw [documentation]
  split
  · rename_i nothing
    rw [nothing]
    simp
  · exact Iff.rfl

/-- Kinds in front of which metadata ends. -/
def EndsMetadata (kind : Kind) : Prop := kind ∉ [.documentationLine, .atSign, .leftBrace, .colon]

theorem accepts_metadata : Accepts metadata Phrase.metadata EndsMetadata := by
  have noSign (kind : Kind) (ends : EndsMetadata kind) : EndsAttachments kind :=
    fun inside => ends (List.mem_cons_of_mem _ inside)
  have leads : Leads Phrase.attachment∗ EndsMetadata (· ≠ .documentationLine) := by
    refine .kstar startsWith_attachment ?_ ?_
    · rintro _ rfl
      simp
    · rintro _ ends rfl
      exact ends List.mem_cons_self
  refine (accepts_documentation.andThen (accepts_attachments.imp noSign) leads).congr
    fun tokens rest => ?_
  rw [metadata_eq]
  split
  · rename_i empty
    rw [← metadataParts_eq_none (List.isEmpty_iff.mp empty)]
    rfl
  · exact Iff.rfl

theorem accepts_qualifiers :
    Accepts (fun tokens => Parsed.tokens (countIn qualifiers tokens) tokens) Phrase.qualifiers
      (· ∉ [.publicKw, .isolatedKw, .finalKw, .configurableKw]) :=
  accepts_countIn _

end ServiceAnnotator.Grammar
