import ServiceAnnotator.Proofs.Attachment.Printed
import ServiceAnnotator.Proofs.Attachment.Selection

/-!
# The pass twice

A service that got the annotation carries it when the printed text is read again, so a second pass
finds nothing to do. This does not depend on the text being free of errors.
-/

namespace ServiceAnnotator.Attachment

open DeclarationView (metadata?)
open Package (annotatedText)

/-- A service that got the annotation has it in its metadata when it is read back. -/
theorem present_metadata?_reread {child : Tree Token} (gets : getsAttachment child) :
    present annotationModule annotationName (metadata? (reread child)) = true := by
  obtain ⟨children, type, childEq, typed⟩ := exists_of_getsAttachment gets
  have named : names annotationModule annotationName readReference.trimmedText = true := by decide
  rw [reread_eq gets typed]
  generalize type.leaves = name, lineBreak child = lineBreak
  rw [childEq]
  exact present_metadata?_withMetadata named _ _ _ _

/-- A child read back does not get the annotation. -/
theorem getsAttachment_reread (child : Tree Token) : getsAttachment (reread child) = false := by
  cases gets : getsAttachment child with
  | false => rw [reread_eq_self gets, gets]
  | true =>
    rw [getsAttachment, isMissing, present_metadata?_reread gets]
    simp

/-- The pass on a text that it has printed annotates no service and gives the same text. -/
theorem annotatedText_idempotent (text : List Char) :
    (∀ service ∈ ModuleView.services (SourceTree.parse (annotatedText text)).tree,
        annotate? service = none) ∧
      annotateModule? (SourceTree.parse (annotatedText text)).tree = none ∧
      annotatedText (annotatedText text) = annotatedText text := by
  have kept : ∀ child ∈ (SourceTree.parse text).tree.children.map reread,
      getsAttachment child = false := by
    intro child inside
    obtain ⟨original, _, rfl⟩ := List.mem_map.mp inside
    exact getsAttachment_reread original
  have treeEq := (readBack text).tree
  have none : ∀ service ∈ ModuleView.services (SourceTree.parse (annotatedText text)).tree,
      isMissing service = false := by
    intro service inside
    rw [treeEq, ModuleView.mem_services] at inside
    obtain ⟨isChild, isNode, isService⟩ := inside
    have notMissing := kept service isChild
    rwa [getsAttachment, isNode, isService, BEq.rfl, Bool.true_and, Bool.true_and] at notMissing
  refine ⟨fun service inside => (annotate?_eq_none_iff service).mpr (none service inside), ?_, ?_⟩
  · have noService : ¬(ModuleView.services (SourceTree.parse (annotatedText text)).tree).any
        isMissing := by
      simpa using none
    rw [annotateModule?, if_neg (by simp [noService])]
  · rw [annotatedText, treeEq, annotateTree_eq_self kept, ← treeEq, SourceTree.text_parse]

end ServiceAnnotator.Attachment
