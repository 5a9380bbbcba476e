import ServiceAnnotator.Proofs.Grammar.Composed

/-!
# The grammar reports in order

A rule reports problems at tokens that it reads, or at the first one that it leaves, and it does not
go back. So of two problems of a document the one reported first has at least as many tokens ahead.
-/

namespace ServiceAnnotator

/-! ## Rules in general -/

/-- What was read from the front of tokens reports problems between the first of them and the first
one that is left, in their order. -/
structure Parsed.InOrder {α : Type} (parsed : Parsed α) (tokens : List α) : Prop where
  ordered : parsed.reports.Pairwise fun earlier later => later.ahead ≤ earlier.ahead
  within : ∀ report ∈ parsed.reports,
    parsed.rest.length ≤ report.ahead ∧ report.ahead ≤ tokens.length
  length_rest_le : parsed.rest.length ≤ tokens.length

namespace Parsed.InOrder

variable {α : Type} {parsed : Parsed α} {tokens : List α}

/-- Nothing is reported. -/
theorem silent (noReports : parsed.reports = [])
    (shorter : parsed.rest.length ≤ tokens.length) : parsed.InOrder tokens := by
  refine ⟨?_, ?_, shorter⟩
  · rw [noReports]
    exact .nil
  · rw [noReports]
    exact fun _ inside => absurd inside List.not_mem_nil

theorem andThen {rule : List α → Parsed α} (first : parsed.InOrder tokens)
    (second : (rule parsed.rest).InOrder parsed.rest) : (parsed.andThen rule).InOrder tokens := by
  refine ⟨?_, ?_, Nat.le_trans second.length_rest_le first.length_rest_le⟩
  · refine List.pairwise_append.mpr ⟨first.ordered, second.ordered, ?_⟩
    intro earlier before later behind
    exact Nat.le_trans (second.within later behind).2 (first.within earlier before).1
  · intro report inside
    rcases List.mem_append.mp inside with before | behind
    · obtain ⟨above, below⟩ := first.within report before
      exact ⟨Nat.le_trans second.length_rest_le above, below⟩
    · obtain ⟨above, below⟩ := second.within report behind
      exact ⟨above, Nat.le_trans below first.length_rest_le⟩

/-- A token in front is read without a report. -/
theorem cons (inOrder : parsed.InOrder tokens) (element : Tree α) (item : α) :
    (parsed.cons element).InOrder (item :: tokens) := by
  refine ⟨inOrder.ordered, fun report inside => ?_, Nat.le_succ_of_le inOrder.length_rest_le⟩
  obtain ⟨above, below⟩ := inOrder.within report inside
  exact ⟨above, Nat.le_succ_of_le below⟩

/-- A problem with the first token is reported before all others. -/
theorem report (inOrder : parsed.InOrder tokens) (p : Problem) :
    (parsed.report p tokens.length).InOrder tokens := by
  refine ⟨?_, ?_, inOrder.length_rest_le⟩
  · exact List.pairwise_cons.mpr ⟨fun later behind => (inOrder.within later behind).2, inOrder.ordered⟩
  · intro report inside
    rcases List.mem_cons.mp inside with rfl | behind
    · exact ⟨inOrder.length_rest_le, Nat.le_refl _⟩
    · exact inOrder.within report behind

end Parsed.InOrder

/-- What is put together step by step is reported in the order of the steps. -/
theorem Parsed.Composed.inOrder {α : Type} {parsed : Parsed α} {tokens : List α}
    (composed : parsed.Composed tokens) : parsed.InOrder tokens := by
  induction composed with
  | none tokens => exact .silent rfl (Nat.le_refl _)
  | tokens count tokens => exact .silent rfl (by simp)
  | andThen _ _ first second => exact first.andThen second
  | wrap _ _ inOrder => exact ⟨inOrder.ordered, inOrder.within, inOrder.length_rest_le⟩
  | cons _ item inOrder => exact inOrder.cons _ item
  | consNode _ _ item inOrder => exact inOrder.cons _ item
  | report _ p inOrder => exact inOrder.report p

end ServiceAnnotator
