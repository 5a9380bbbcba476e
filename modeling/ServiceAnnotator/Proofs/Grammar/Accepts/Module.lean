import ServiceAnnotator.Proofs.Events.Parse
import ServiceAnnotator.Proofs.Grammar.Accepts.Declaration

/-!
# Modules without problems

A module is read without a report exactly if the kinds of its tokens are a phrase of the language of
modules. The grammar looks at kinds only, so that this holds for the tokens of every text.
-/

open scoped Computability

namespace ServiceAnnotator

namespace Grammar

open Phrase (IsModule Leads StartsWith flat leads_any oneOf startsWith_token token)

/-! ## Declarations with what stands in front of them -/

theorem startsWith_declaration (behind : Kind) :
    StartsWith (token .serviceKw * Phrase.serviceParts + flat behind) (startsDeclaration ·) := by
  refine .add (((startsWith_token _).mul _).imp ?_) ?_
  · rintro _ rfl
    rfl
  · rintro phrase ⟨starts, _⟩
    match phrase with
    | first :: rest =>
      refine ⟨first, rest, rfl, ?_⟩
      rcases starts with isFlat | ⟨rfl, _⟩
      · rw [startsDeclaration, (isSome_declarationKind?_iff first).mpr isFlat, Bool.or_true]
      · rfl

theorem startsWith_oneOf (kinds : List Kind) : StartsWith (oneOf kinds) (· ∈ kinds) := by
  rintro _ ⟨kind, isOne, rfl⟩
  exact ⟨kind, [], rfl, isOne⟩

/-- What decides about a declaration neither goes on with what stands in front of it nor is the
keyword of an import. -/
theorem of_startsDeclaration (kind : Kind) (starts : startsDeclaration kind) :
    kind ∉ [.documentationLine, .atSign, .leftBrace, .colon] ∧
      kind ∉ [.publicKw, .isolatedKw, .finalKw, .configurableKw] ∧ startsMember kind := by
  revert starts
  cases kind <;> decide

theorem of_mem_qualifiers (kind : Kind)
    (qualifies : kind ∈ [.publicKw, .isolatedKw, .finalKw, .configurableKw]) :
    kind ∉ [.documentationLine, .atSign, .leftBrace, .colon] ∧ startsMember kind := by
  revert qualifies
  cases kind <;> decide

theorem accepts_member (behind : Kind) : Accepts member (Phrase.member behind) (· = behind) := by
  have onDeclaration : Leads (token .serviceKw * Phrase.serviceParts + flat behind) (· = behind)
      (startsDeclaration ·) :=
    (startsWith_declaration behind).leads fun _ => id
  have onQualifiers : Leads Phrase.qualifiers (startsDeclaration ·) EndsMetadata :=
    .kstar (startsWith_oneOf _) (fun kind qualifies => (of_mem_qualifiers kind qualifies).1)
      fun kind starts => (of_startsDeclaration kind starts).1
  have acceptsQualifiers := accepts_qualifiers.imp fun kind starts =>
    (of_startsDeclaration kind starts).2.1
  refine ((accepts_metadata.andThen acceptsQualifiers onQualifiers).andThen
    (accepts_declaration behind) onDeclaration).congr fun tokens rest => ?_
  rw [member_eq, Parsed.clean_wrap, Parsed.andThen_assoc]
  rfl

/-- A declaration starts with its metadata, with a qualifier, or with what decides about it. -/
theorem leads_member (behind : Kind) :
    Leads (Phrase.member behind) (fun _ => True) (startsMember ·) := by
  have onDeclaration : Leads (token .serviceKw * Phrase.serviceParts + flat behind) (fun _ => True)
      (startsMember ·) :=
    (startsWith_declaration behind).leads fun kind starts => (of_startsDeclaration kind starts).2.2
  have onQualifiers : Leads Phrase.qualifiers (startsMember ·) (startsMember ·) :=
    .kstar (startsWith_oneOf _) (fun kind qualifies => (of_mem_qualifiers kind qualifies).2)
      fun _ => id
  have onMetadata : Leads Phrase.metadata (startsMember ·) (startsMember ·) :=
    .mul (.kstar startsWith_attachment (by rintro _ rfl; rfl) fun _ => id)
      (.kstar (startsWith_token _) (by rintro _ rfl; rfl) fun _ => id)
  exact onDeclaration.mul (onQualifiers.mul onMetadata)

/-! ## Modules -/

/-- What the rule for modules makes of an item, given that the tokens behind are read without a
report. -/
theorem clean_items_append {item rest : List Kind}
    (isItem : item ∈ Phrase.importDeclaration + Phrase.member (next rest))
    (clean : (items rest).Clean []) : (items (item ++ rest)).Clean [] := by
  rcases isItem with isImport | isMember
  · rw [Phrase.importDeclaration, mul_assoc] at isImport
    obtain ⟨_, rfl, front, inFront, rfl⟩ := isImport
    have accepts : Accepts (importDeclaration .importKw) _ fun _ => True :=
      accepts_importDeclaration .importKw
    have cleanImport := (accepts (front ++ rest) rest trivial).mpr ⟨front, inFront, rfl⟩
    show (items (.importKw :: (front ++ rest))).Clean []
    rw [items_cons, kind_self, if_pos rfl, Parsed.clean_andThen]
    exact ⟨rest, cleanImport, clean⟩
  · have starts := leads_member _ item isMember rest trivial
    have cleanMember := (accepts_member _ (item ++ rest) rest rfl).mpr ⟨item, isMember, rfl⟩
    cases split : item ++ rest with
    | nil =>
      rw [split] at starts
      cases starts
    | cons first behind =>
      rw [split] at cleanMember
      rw [split, next_cons] at starts
      have noImport : first ≠ .importKw := by
        rintro rfl
        cases starts
      rw [items_cons, kind_self, if_neg noImport, if_pos starts, Parsed.clean_andThen]
      exact ⟨rest, cleanMember, clean⟩

/-- Tokens that are read without a report are an item and tokens that are, unless there are none. -/
theorem exists_item_of_clean_items {first : Kind} {behind : List Kind}
    (clean : (items (first :: behind)).Clean []) :
    ∃ item rest, item ∈ Phrase.importDeclaration + Phrase.member (next rest) ∧
      item ++ rest = first :: behind ∧ rest.length < (first :: behind).length ∧
        (items rest).Clean [] := by
  rw [items_cons, kind_self] at clean
  split at clean
  · rename_i isImport
    subst isImport
    obtain ⟨rest, cleanImport, cleanRest⟩ := (Parsed.clean_andThen _).mp clean
    have accepts : Accepts (importDeclaration .importKw) _ fun _ => True :=
      accepts_importDeclaration .importKw
    obtain ⟨front, inFront, rfl⟩ := (accepts behind rest trivial).mp cleanImport
    refine ⟨.importKw :: front, rest, .inl ?_, rfl, ?_, cleanRest⟩
    · rw [Phrase.importDeclaration, mul_assoc]
      exact ⟨[.importKw], rfl, front, inFront, rfl⟩
    · simp only [List.length_cons, List.length_append]
      omega
  · split at clean
    · rename_i starts
      obtain ⟨rest, cleanMember, cleanRest⟩ := (Parsed.clean_andThen _).mp clean
      obtain ⟨item, isMember, split⟩ := (accepts_member _ _ rest rfl).mp cleanMember
      refine ⟨item, rest, .inr isMember, split, ?_, cleanRest⟩
      have shorter : (member (first :: behind)).rest.length < (first :: behind).length :=
        length_rest_member_lt starts
      rwa [cleanMember.2] at shorter
    · exact absurd clean (Parsed.not_clean_report _ _)

theorem isModule_of_clean_items : ∀ tokens, (items tokens).Clean [] → IsModule tokens
  | [], _ => .nil
  | first :: behind, clean => by
    obtain ⟨item, rest, isItem, split, shorter, cleanRest⟩ := exists_item_of_clean_items clean
    rw [← split]
    exact .cons isItem (isModule_of_clean_items rest cleanRest)
termination_by tokens => tokens.length
decreasing_by exact shorter

/-- Tokens are read without a report exactly if they are imports and declarations. -/
theorem reports_items_eq_nil_iff (tokens : List Kind) :
    (items tokens).reports = [] ↔ IsModule tokens := by
  constructor
  · intro noReports
    exact isModule_of_clean_items tokens ⟨noReports, rest_items tokens⟩
  · intro isModule
    suffices clean : (items tokens).Clean [] from clean.1
    induction isModule with
    | nil =>
      rw [items]
      exact ⟨rfl, rfl⟩
    | cons isItem _ clean => exact clean_items_append isItem clean

/-- The grammar decides about the language of modules. -/
instance : DecidablePred IsModule := fun tokens =>
  decidable_of_iff _ (reports_items_eq_nil_iff tokens)

example : IsModule [.importKw, .identifier, .semicolon, .atSign, .identifier, .serviceKw, .slash,
    .onKw, .identifier, .leftBrace, .rightBrace, .serviceKw, .classKw, .leftBrace, .rightBrace] := by
  decide +kernel

example : ¬IsModule [.serviceKw, .onKw, .leftBrace, .rightBrace] := by
  decide +kernel

end Grammar

namespace Events

/-- Parsing ends without a fault, whatever a text is, and it reports nothing exactly if the tokens
in front of the end of the file are imports and declarations, one behind the other. -/
theorem diagnostics_eq_nil_iff (text : List Char) :
    ∃ tree diagnostics, (parse text).run = some (.ok (tree, diagnostics)) ∧
      (diagnostics = [] ↔ Phrase.IsModule ((TokenStream.scan text).tokens.map Token.kind)) := by
  have sameReports := congrArg Parsed.reports
    (Grammar.items_map (f := Token.kind) (fun _ => rfl) (TokenStream.scan text).tokens)
  refine ⟨_, _, parse_eq text, ?_⟩
  rw [← Grammar.reports_items_eq_nil_iff, sameReports, SourceTree.problems, List.map_eq_nil_iff]
  rfl

end Events

end ServiceAnnotator
