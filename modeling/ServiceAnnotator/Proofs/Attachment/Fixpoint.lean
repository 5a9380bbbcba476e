import ServiceAnnotator.Proofs.Attachment.Idempotence

/-!
# Texts that the pass leaves alone

The pass leaves a text as it is exactly when none of its services has a declared type without
carrying the annotation. Every text that the pass has printed is of this kind, and it has no errors
that the text before it did not have.
-/

namespace ServiceAnnotator

namespace SourceTree

/-- Only problems of the grammar are errors; repeated imports are warnings. -/
theorem exists_isError_check_iff (text : List Char) :
    (∃ diagnostic ∈ check text, diagnostic.isError) ↔ (parse text).reports ≠ [] := by
  have warnings (seen : List (List Char)) (imports : List (Tree PlacedToken)) :
      ∀ diagnostic ∈ repeatedImports seen imports, diagnostic.isError = false := by
    fun_induction repeatedImports seen imports with
    | case1 => simp
    | case2 _ _ _ _ _ ih => exact ih
    | case3 _ _ _ _ _ _ _ ih => simpa [Diagnostic.isError] using ih
    | case4 _ _ _ _ _ _ ih => exact ih
  constructor
  · rintro ⟨diagnostic, inside, isError⟩ clean
    rw [check, diagnostics, List.mem_mergeSort, List.mem_append, problems, clean, List.map_nil]
      at inside
    rcases inside with inside | inside
    · cases inside
    · rw [warnings _ _ _ inside] at isError
      cases isError
  · intro some
    have someProblem : (parse text).problems ≠ [] := by simpa [problems] using some
    obtain ⟨problem, inside⟩ := List.exists_mem_of_ne_nil _ someProblem
    refine ⟨problem, List.mem_mergeSort.mpr (List.mem_append_left _ inside), ?_⟩
    obtain ⟨_, _, rfl⟩ := List.mem_map.mp inside
    rfl

end SourceTree

namespace Attachment

open Package (annotatedText)

/-- Whether a text has a service with a declared type and without the annotation. -/
def Unannotated (text : List Char) : Prop :=
  ∃ service ∈ ModuleView.services (SourceTree.parse text).tree,
    (ServiceView.type? service).isSome ∧
      present annotationModule annotationName (DeclarationView.metadata? service) = false

instance (text : List Char) : Decidable (Unannotated text) :=
  inferInstanceAs (Decidable (∃ service ∈ _, _))

/-- A text needs no annotation if and only if none of its children gets one. -/
theorem not_unannotated_iff (text : List Char) :
    ¬Unannotated text ↔
      ∀ child ∈ (SourceTree.parse text).tree.children, getsAttachment child = false := by
  have treeEq : (SourceTree.parse text).tree =
      .node .modulePart (SourceTree.parse text).tree.children := rfl
  rw [Unannotated, treeEq]
  simp only [ModuleView.mem_services, Tree.children]
  have missing (child : Tree Token) : getsAttachment child = true ↔
      (child.isNode ∧ child.kind = .serviceDeclaration) ∧ (ServiceView.type? child).isSome ∧
        present annotationModule annotationName (DeclarationView.metadata? child) = false := by
    simp only [getsAttachment, isMissing, Bool.and_eq_true, beq_iff_eq, Bool.not_eq_true']
  constructor
  · intro none child inside
    rw [Bool.eq_false_iff]
    intro gets
    obtain ⟨isService, lacks⟩ := (missing child).mp gets
    exact none ⟨child, ⟨inside, isService⟩, lacks⟩
  · rintro none ⟨child, ⟨inside, isService⟩, lacks⟩
    have gets := (missing child).mpr ⟨isService, lacks⟩
    rw [none child inside] at gets
    cases gets

/-- The pass on a text that it has printed gives the same text. -/
theorem annotatedText_annotatedText (text : List Char) :
    annotatedText (annotatedText text) = annotatedText text := by
  have kept : ∀ child ∈ (SourceTree.parse text).tree.children.map reread,
      getsAttachment child = false := by
    intro child inside
    obtain ⟨original, _, rfl⟩ := List.mem_map.mp inside
    exact getsAttachment_reread original
  rw [annotatedText, (readBack text).tree, annotateTree_eq_self kept, ← (readBack text).tree,
    SourceTree.text_parse]

/-- The pass leaves a text as it is if and only if no service in it lacks the annotation. -/
theorem annotatedText_eq_self_iff (text : List Char) :
    annotatedText text = text ↔ ¬Unannotated text := by
  rw [not_unannotated_iff]
  constructor
  · intro same child inside
    have treeEq := (readBack text).tree
    rw [same] at treeEq
    have childrenEq : (SourceTree.parse text).tree.children =
        (SourceTree.parse text).tree.children.map reread := congrArg Tree.children treeEq
    rw [childrenEq] at inside
    obtain ⟨original, _, rfl⟩ := List.mem_map.mp inside
    exact getsAttachment_reread original
  · intro kept
    have treeEq : (SourceTree.parse text).tree =
        .node .modulePart (SourceTree.parse text).tree.children := rfl
    rw [annotatedText, treeEq, annotateTree_eq_self kept, ← treeEq, SourceTree.text_parse]

/-- A text that the pass has printed has errors only if the text before had some. -/
theorem exists_isError_check_annotatedText (text : List Char) :
    (∃ diagnostic ∈ SourceTree.check (annotatedText text), diagnostic.isError) ↔
      ∃ diagnostic ∈ SourceTree.check text, diagnostic.isError := by
  rw [SourceTree.exists_isError_check_iff, SourceTree.exists_isError_check_iff, ne_eq, ne_eq,
    ← List.map_eq_nil_iff, (readBack text).problems, List.map_eq_nil_iff]

end Attachment

end ServiceAnnotator
