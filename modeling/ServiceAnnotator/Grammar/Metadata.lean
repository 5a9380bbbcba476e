import ServiceAnnotator.Grammar.Expression

/-!
# Metadata

Documentation lines and annotation attachments may stand in front of any declaration.
-/

namespace ServiceAnnotator.Grammar

variable {α : Type} [Kinded α]

/-- Keywords that may stand in front of the keyword of a declaration. -/
def qualifiers : KindSet := .ofList [.publicKw, .isolatedKw, .finalKw, .configurableKw]

/-- Keywords that decide what a declaration is. -/
def memberKeywords : KindSet :=
  .ofList [.serviceKw, .functionKw, .listenerKw, .typeKw, .constKw, .classKw, .enumKw,
    .annotationKw]

/-- Kinds at which reading goes on when the name of an annotation is missing. -/
def attachmentRecovery : KindSet :=
  ((memberKeywords.union qualifiers).insert .atSign).insert .leftBrace

/-- An annotation attachment behind its at sign: a name and an optional mapping constructor. -/
def attachment (sign : α) (tokens : List α) : Parsed α :=
  (((nameReference attachmentRecovery tokens).andThen mapping?).cons (.leaf sign)).wrap
    .annotationAttachment

theorem length_rest_attachment_le (sign : α) (tokens : List α) :
    (attachment sign tokens).rest.length ≤ tokens.length :=
  Nat.le_trans (length_rest_mapping_le _) (length_rest_nameReference_le ..)

/-- Annotation attachments, one after the other. -/
def attachments (tokens : List α) : Parsed α :=
  match tokens with
  | [] => .none []
  | sign :: rest =>
    if Kinded.kind sign = .atSign then
      let first := attachment sign rest
      let more := attachments first.rest
      first.andThen fun _ => more
    else .none (sign :: rest)
termination_by tokens.length
decreasing_by exact Nat.lt_succ_of_le (length_rest_attachment_le ..)

theorem length_rest_attachments_le (tokens : List α) :
    (attachments tokens).rest.length ≤ tokens.length := by
  fun_induction attachments tokens with
  | case1 => simp
  | case2 _ _ _ first more ih =>
    simp only [Parsed.rest_andThen]
    exact Nat.le_succ_of_le (Nat.le_trans ih (length_rest_attachment_le ..))
  | case3 => simp

/-- Documentation lines, in a node of their own if there are any. -/
def documentation (tokens : List α) : Parsed α :=
  let count := countIn (.ofList [.documentationLine]) tokens
  if count = 0 then .none tokens else (Parsed.tokens count tokens).wrap .documentation

/-- Documentation lines followed by annotation attachments, in a node if there are any. -/
def metadata (tokens : List α) : Parsed α :=
  let parsed := (documentation tokens).andThen attachments
  if parsed.elements.isEmpty then .none tokens else parsed.wrap .metadata

theorem countIn_cons (set : KindSet) (first : α) (rest : List α) :
    countIn set (first :: rest) =
      if set.contains (Kinded.kind first) then 1 + countIn set rest else 0 := by
  unfold countIn
  rw [List.takeWhile_cons]
  split <;> simp [Nat.add_comm]

/-- Without a documentation line or an at sign in front there is no metadata. -/
theorem metadata_eq_none {first : α} {rest : List α}
    (noLine : Kinded.kind first ≠ .documentationLine) (noSign : Kinded.kind first ≠ .atSign) :
    metadata (first :: rest) = .none (first :: rest) := by
  have noLines : countIn (.ofList [.documentationLine]) (first :: rest) = 0 := by
    simp [countIn_cons, KindSet.ofList, noLine]
  have noSigns : attachments (first :: rest) = .none (first :: rest) := by
    rw [attachments]
    simp [noSign]
  simp [metadata, documentation, noLines, Parsed.andThen, noSigns, Parsed.none]

/-- Behind metadata less is left than in front of it. -/
theorem length_rest_metadata_lt {first : α} {rest : List α}
    (starts : Kinded.kind first = .documentationLine ∨ Kinded.kind first = .atSign) :
    (metadata (first :: rest)).rest.length < (first :: rest).length := by
  have shorter : ((documentation (first :: rest)).andThen attachments).rest.length
      < (first :: rest).length := by
    rw [Parsed.rest_andThen]
    rcases starts with line | sign
    · refine Nat.lt_of_le_of_lt (length_rest_attachments_le _) ?_
      have counted : 0 < countIn (.ofList [.documentationLine]) (first :: rest) := by
        rw [countIn_cons, if_pos (by simp [KindSet.ofList, line])]
        omega
      simp only [documentation, if_neg (Nat.ne_of_gt counted), Parsed.rest_wrap,
        Parsed.rest_tokens, List.length_drop, List.length_cons]
      omega
    · have noLines : countIn (.ofList [.documentationLine]) (first :: rest) = 0 := by
        simp [countIn_cons, KindSet.ofList, sign]
      simp only [documentation, noLines, ↓reduceIte, Parsed.rest_none]
      rw [attachments]
      simp only [sign, ↓reduceIte, Parsed.rest_andThen]
      exact Nat.lt_succ_of_le
        (Nat.le_trans (length_rest_attachments_le _) (length_rest_attachment_le _ _))
  have some : ((documentation (first :: rest)).andThen attachments).elements ≠ [] := by
    rcases starts with line | sign
    · simp [documentation, countIn_cons, KindSet.ofList, line, Parsed.andThen, Parsed.wrap]
    · have noLines : countIn (.ofList [.documentationLine]) (first :: rest) = 0 := by
        simp [countIn_cons, KindSet.ofList, sign]
      simp only [documentation, noLines, ↓reduceIte, Parsed.andThen, Parsed.none]
      rw [attachments]
      simp [sign, Parsed.andThen, attachment, Parsed.wrap]
  simp only [metadata]
  split
  · simp_all
  · simpa using shorter

end ServiceAnnotator.Grammar
