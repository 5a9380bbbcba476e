import ServiceAnnotator.Proofs.Grammar.Frame.Expression

/-!
# Metadata in front of other tokens

Metadata ends in front of the first token that is neither a documentation line nor an at sign. If
annotation attachments are put there, then they join the metadata behind all that it held before.
-/

namespace ServiceAnnotator.Grammar

open Parsed (Agrees)

variable {α : Type} [Kinded α] {rest rest' : List α}

theorem agrees_attachment (follows : Follows rest rest') (sign : α) (front : List α) :
    Agrees rest rest' (attachment sign (front ++ rest)) (attachment sign (front ++ rest')) := by
  have alike : stopsAlike attachmentRecovery := fun absent => absurd absent (by decide)
  refine (Agrees.cons ?_ _).wrap _
  exact (agrees_nameReference follows alike front).andThen (composed_mapping _) fun behind _ =>
    agrees_mapping follows behind

/-- What two rules read one behind the other, the second in place of the rest of the first. -/
structure Joined (left right whole : Parsed α) : Prop where
  elements : whole.elements = left.elements ++ right.elements
  problems : whole.problems = left.problems ++ right.problems
  rest : whole.rest = right.rest

omit [Kinded α] in
/-- What joins the end of a part joins the end of the whole. -/
theorem Joined.andThen {left left' more : Parsed α} {rule : List α → Parsed α} {behind : List α}
    (agrees : Agrees rest rest' left left') (split : left.rest = behind ++ rest)
    (joined : Joined (rule (behind ++ rest)) more (rule (behind ++ rest'))) :
    Joined (left.andThen rule) more (left'.andThen rule) := by
  obtain ⟨elements, problems, restEq⟩ := agrees behind split
  rw [← split, ← restEq] at joined
  refine ⟨?_, ?_, joined.rest⟩
  · rw [Parsed.andThen, Parsed.andThen, elements, joined.elements, List.append_assoc]
  · have later := joined.problems
    simp only [Parsed.problems, Parsed.andThen, List.map_append] at problems later ⊢
    rw [problems, later, List.append_assoc]

/-- Attachments do not end in front of an at sign. -/
theorem next_rest_attachments_ne (tokens : List α) :
    next (attachments tokens).rest ≠ .atSign := by
  fun_induction attachments tokens with
  | case1 => simp [next]
  | case2 sign rest isSign first more ih => exact ih
  | case3 sign rest noSign => exact noSign

/-- Attachments that are put behind others are read behind them. -/
theorem attachments_append (follows : Follows rest rest') (front : List α)
    (ends : (attachments (front ++ rest)).rest = rest) :
    Joined (attachments (front ++ rest)) (attachments rest') (attachments (front ++ rest')) := by
  match front with
  | [] =>
    have noSign := next_rest_attachments_ne rest
    rw [List.nil_append] at ends ⊢
    rw [ends] at noSign
    rw [attachments_of_next_ne noSign]
    exact ⟨rfl, rfl, rfl⟩
  | sign :: front =>
    rw [List.cons_append, attachments_cons] at ends
    rw [List.cons_append, List.cons_append, attachments_cons, attachments_cons]
    split at ends
    · rename_i isSign
      rw [if_pos isSign, if_pos isSign]
      obtain ⟨behind, split⟩ :=
        (composed_attachments (attachment sign (front ++ rest)).rest).covers.exists_front
      rw [Parsed.rest_andThen] at ends
      rw [ends] at split
      have shorter := length_le_of_rest_eq split (length_rest_attachment_le sign (front ++ rest))
      rw [split] at ends
      exact .andThen (agrees_attachment follows sign front) split
        (attachments_append follows behind ends)
    · have lengthEq := congrArg List.length ends
      simp only [Parsed.rest_none, List.length_cons, List.length_append] at lengthEq
      omega
termination_by front.length

/-! ## All metadata -/

/-- The node around the parts of metadata changes neither the problems nor the rest. -/
theorem metadata_parts (tokens : List α) :
    (metadata tokens).problems = (metadataParts tokens).problems ∧
      (metadata tokens).rest = (metadataParts tokens).rest := by
  rw [metadata_eq]
  split
  · rename_i empty
    rw [metadataParts_eq_none (List.isEmpty_iff.mp empty)]
    exact ⟨rfl, rfl⟩
  · exact ⟨rfl, rfl⟩

theorem rest_metadata (tokens : List α) : (metadata tokens).rest = (metadataParts tokens).rest :=
  (metadata_parts tokens).2

theorem agrees_documentation (follows : Follows rest rest') (front : List α) :
    Agrees rest rest' (documentation (front ++ rest)) (documentation (front ++ rest')) := by
  refine .ofCount (List.takeWhile_prefix _).length_le ?_ (Parsed.wrap .documentation)
    (fun agrees => agrees.wrap .documentation) (fun _ => rfl) (.none front)
  exact length_takeWhile_append follows (p := (KindSet.ofList [.documentationLine]).contains)
    (fun inside => absurd inside (by decide)) front

/-- Attachments that are put behind metadata join it. -/
theorem metadataParts_append (follows : Follows rest rest') (front : List α)
    (ends : (metadataParts (front ++ rest)).rest = rest) :
    Joined (metadataParts (front ++ rest)) (attachments rest') (metadataParts (front ++ rest')) := by
  obtain ⟨behind, split⟩ :=
    (composed_attachments (documentation (front ++ rest)).rest).covers.exists_front
  rw [metadataParts, Parsed.rest_andThen] at ends
  rw [ends] at split
  rw [split] at ends
  exact .andThen (agrees_documentation follows front) split
    (attachments_append follows behind ends)

/-- Metadata is read the same in front of other tokens, unless these are attachments. -/
theorem same_metadata (follows : Follows rest rest') (noSign : next rest' ≠ .atSign)
    (front : List α) (ends : (metadata (front ++ rest)).rest = rest) :
    (metadata (front ++ rest)).Same (metadata (front ++ rest')) rest' := by
  rw [rest_metadata] at ends
  obtain ⟨elements, problems, restEq⟩ := metadataParts_append follows front ends
  rw [attachments_of_next_ne noSign] at elements problems restEq
  have sameElements := elements.trans (List.append_nil _)
  have sameProblems := problems.trans (List.append_nil _)
  refine ⟨?_, ?_, (rest_metadata _).trans restEq⟩
  all_goals
    rw [metadata_eq, metadata_eq, sameElements]
    split
  · rfl
  · rw [Parsed.wrap, Parsed.wrap, sameElements]
  · rfl
  · exact sameProblems

end ServiceAnnotator.Grammar
