import ServiceAnnotator.Proofs.Attachment.Insertion
import ServiceAnnotator.Proofs.Attachment.Reparse
import ServiceAnnotator.Proofs.Scan.Seam
import ServiceAnnotator.Proofs.Tree.FirstLeaf

/-!
# The pass behind more trivia

More trivia in front of a declaration changes nothing that the pass looks at: references are
compared without the trivia around them, and the first line break can only change where there are
carriage returns. An annotation that is put in front of the declaration takes the trivia over.
-/

namespace ServiceAnnotator.Attachment

open DeclarationView (isMetadata metadata?)
open ServiceAnnotator.Tree (Shifted)

variable {pieces : Trivia}

/-! ## What the pass looks at -/

section

variable {left right : Tree Token} (shifted : Shifted (Token.indent pieces) left right)

include shifted

theorem trimmed_of_shifted : right.trimmed = left.trimmed := by
  rcases shifted with rfl | rfl
  · rfl
  · have keepsKind (token : Token) : token.withoutLeading.kind = token.kind := rfl
    rw [Tree.trimmed, Tree.trimmed, Tree.mapFirst_mapFirst (Token.kind_indent pieces) keepsKind
      (Token.withoutLeading_indent pieces)]

theorem refersTo_of_shifted (moduleName name : List Char) :
    refersTo moduleName name right = refersTo moduleName name left := by
  rw [refersTo, refersTo, AttachmentView.reference?, AttachmentView.reference?]
  rcases shifted.nodeWhere? (Token.kind_indent pieces) Kind.isReference with
    ⟨absent, absent'⟩ | ⟨reference, reference', found, found', shifted⟩
  · rw [absent, absent']
  · rw [found, found']
    simp only [Tree.trimmedText, trimmed_of_shifted shifted,
      (shifted.kind_eq (Token.kind_indent pieces)).1]

theorem any_refersTo_of_shifted (moduleName name : List Char) :
    (MetadataView.attachments right).any (refersTo moduleName name) =
      (MetadataView.attachments left).any (refersTo moduleName name) := by
  have attachments := shifted.nodesWhere (Token.kind_indent pieces) (· == .annotationAttachment)
  rw [MetadataView.attachments, MetadataView.attachments]
  generalize left.nodesWhere (· == .annotationAttachment) = found,
    right.nodesWhere (· == .annotationAttachment) = found' at attachments
  induction attachments with
  | nil => rfl
  | cons first _ ih => rw [List.any_cons, List.any_cons, refersTo_of_shifted first, ih]

theorem present_of_shifted (moduleName name : List Char) :
    present moduleName name (metadata? right) = present moduleName name (metadata? left) := by
  rw [metadata?, metadata?, Tree.node?, Tree.node?]
  rcases shifted.nodeWhere? (Token.kind_indent pieces) (· == .metadata) with
    ⟨absent, absent'⟩ | ⟨data, data', found, found', shifted⟩
  · rw [absent, absent']
  · rw [found, found']
    exact any_refersTo_of_shifted shifted moduleName name

theorem isSome_type?_of_shifted :
    (ServiceView.type? right).isSome = (ServiceView.type? left).isSome := by
  rw [ServiceView.type?, ServiceView.type?]
  rcases shifted.nodeWhere? (Token.kind_indent pieces) Kind.isReference with
    ⟨absent, absent'⟩ | ⟨type, type', found, found', _⟩
  · rw [absent, absent']
  · rw [found, found', Option.isSome_some, Option.isSome_some]

/-- The field of the annotation holds the type without the trivia around it. -/
theorem exists_field_of_shifted {type : Tree Token} (typed : ServiceView.type? left = some type) :
    ∃ type', ServiceView.type? right = some type' ∧ field type' = field type := by
  rcases shifted.nodeWhere? (Token.kind_indent pieces) Kind.isReference with
    ⟨absent, _⟩ | ⟨found, found', isFound, isFound', shifted⟩
  · cases absent.symm.trans typed
  · obtain rfl : found = type := Option.some.inj (isFound.symm.trans typed)
    refine ⟨found', isFound', ?_⟩
    rw [field, field, Fragment.specificField, Fragment.specificField, trimmed_of_shifted shifted]

theorem getsAttachment_of_shifted : getsAttachment right = getsAttachment left := by
  obtain ⟨sameKind, sameNode⟩ := shifted.kind_eq (Token.kind_indent pieces)
  rw [getsAttachment, getsAttachment, isMissing, isMissing, sameKind, sameNode,
    present_of_shifted shifted, isSome_type?_of_shifted shifted]

end

/-! ## What the pass makes of it -/

theorem lineBreak_of_noReturn {tree : Tree Token} (noReturn : '\r' ∉ tree.text) :
    lineBreak tree = ['\n'] := by
  rw [lineBreak_eq, firstLineBreak, if_neg]
  rintro ⟨_, last⟩
  exact noReturn ((List.takeWhile_prefix _).subset (List.mem_of_getLast? last))

theorem text_indent (pieces : Trivia) {tree : Tree Token} (nonempty : tree.leaves ≠ []) :
    (tree.mapFirst (Token.indent pieces)).text = pieces.text ++ tree.text := by
  obtain ⟨first, rest, leavesEq⟩ := List.exists_cons_of_ne_nil nonempty
  simp [Tree.text, leavesEq]

theorem leadingTrivia_indent (pieces : Trivia) {tree : Tree Token} (nonempty : tree.leaves ≠ []) :
    ServiceView.leadingTrivia (tree.mapFirst (Token.indent pieces)) =
      pieces ++ ServiceView.leadingTrivia tree := by
  obtain ⟨first, rest, leavesEq⟩ := List.exists_cons_of_ne_nil nonempty
  simp [ServiceView.leadingTrivia, Tree.firstLeaf?, leavesEq, Token.indent, Token.withLeading]

/-- Metadata, where there is any, comes first and has a token. -/
def MetadataFirst (declaration : Tree Token) : Prop :=
  ∀ data, metadata? declaration = some data →
    data.leaves ≠ [] ∧ ∃ others, declaration.children = data :: others

/-- In front of a declaration an annotation takes over all trivia. -/
theorem leaves_withMetadata_of_none {attachment : Tree Token} {sign : Token} {behind : List Token}
    (attachmentLeaves : attachment.leaves = sign :: behind) (bare : sign.leading = [])
    {kind : Kind} {children edits : List (Tree Token)} (nonempty : Tree.leavesOf children ≠ [])
    (shape : (Tree.node kind children).mapFirst (Token.indent pieces) = .node kind edits)
    (none : metadata? (.node kind children) = none) :
    (ServiceView.withMetadata (mergeInto (metadata? (.node kind edits)) attachment)
        (.node kind edits)).leaves =
      (ServiceView.withMetadata (mergeInto (metadata? (.node kind children)) attachment)
        (.node kind children)).leaves.modifyHead (Token.indent pieces) := by
  have shifted : Shifted (Token.indent pieces) (.node kind children) (.node kind edits) :=
    .inr shape.symm
  have none' : metadata? (.node kind edits) = .none := by
    rcases shifted.nodeWhere? (Token.kind_indent pieces) (· == .metadata) with
      ⟨_, absent⟩ | ⟨_, _, found, _⟩
    · exact absent
    · cases found.symm.trans none
  have metadataLeaves : (mergeInto .none attachment).leaves = sign :: behind := by
    simp [mergeInto, Fragment.metadata, attachmentLeaves]
  have someLeaf : (Tree.node kind children).leaves ≠ [] := by rwa [Tree.leaves_node]
  have trivia := leadingTrivia_indent pieces someLeaf
  have editsEq := Tree.leaves_mapFirst (Token.indent pieces) (.node kind children)
  rw [shape] at trivia editsEq
  rw [Tree.leaves_node, Tree.leaves_node] at editsEq
  rw [none, none', ServiceView.leaves_withMetadata kind edits metadataLeaves bare none',
    ServiceView.leaves_withMetadata kind children metadataLeaves bare none, trivia, editsEq,
    List.modifyHead_modifyHead]
  rfl

/-- Behind metadata an annotation leaves the first token in its place. -/
theorem leaves_withMetadata_of_some (attachment : Tree Token) (kind : Kind) {old : Tree Token}
    (others : List (Tree Token)) (nonempty : old.leaves ≠ []) (isOld : isMetadata old) :
    (ServiceView.withMetadata (mergeInto (some (old.mapFirst (Token.indent pieces))) attachment)
        (.node kind (old.mapFirst (Token.indent pieces) :: others))).leaves =
      (ServiceView.withMetadata (mergeInto (some old) attachment)
        (.node kind (old :: others))).leaves.modifyHead (Token.indent pieces) := by
  have nothing : ∀ child ∈ ([] : List (Tree Token)), isMetadata child = false := by simp
  cases old with
  | leaf token => cases isOld
  | node metadataKind parts =>
    obtain ⟨edits, shape, editsEq⟩ :=
      Tree.exists_mapFirst_node (Token.indent pieces) metadataKind parts
    have replaced (metadata : Tree Token) (parts : List (Tree Token)) :
        ServiceView.withMetadata metadata (.node kind (.node metadataKind parts :: others)) =
          .node kind (metadata :: others) := by
      have isData : isMetadata (.node metadataKind parts) := isOld
      show ServiceView.withMetadata metadata
        (.node kind ([] ++ .node metadataKind parts :: others)) = .node kind ([] ++ metadata :: others)
      exact ServiceView.withMetadata_append metadata kind isData nothing
    rw [Tree.leaves_node] at nonempty
    obtain ⟨first, rest, leavesEq⟩ := List.exists_cons_of_ne_nil nonempty
    rw [shape, replaced, replaced]
    simp [mergeInto, Tree.append, Tree.withChildren, Tree.children, editsEq, leavesEq]

/-- A service that gets the annotation gets it behind more trivia, too. -/
theorem leaves_annotateChild_indent {child : Tree Token} (gets : getsAttachment child)
    (nonempty : child.leaves ≠ []) (metadataFirst : MetadataFirst child)
    (noReturn : '\r' ∉ pieces.text ++ child.text) :
    (annotateChild (child.mapFirst (Token.indent pieces))).leaves =
      (annotateChild child).leaves.modifyHead (Token.indent pieces) := by
  have shifted : Shifted (Token.indent pieces) child (child.mapFirst (Token.indent pieces)) :=
    .inr rfl
  have gets' := (getsAttachment_of_shifted shifted).trans gets
  obtain ⟨children, type, childEq, typed⟩ := exists_of_getsAttachment gets
  obtain ⟨type', typed', sameField⟩ := exists_field_of_shifted shifted typed
  have sameBreak : lineBreak (child.mapFirst (Token.indent pieces)) = lineBreak child := by
    rw [lineBreak_of_noReturn fun inside => noReturn (List.mem_append_right _ inside)]
    rw [← text_indent pieces nonempty] at noReturn
    exact lineBreak_of_noReturn noReturn
  rw [annotateChild_eq_of_gets gets typed, annotateChild_eq_of_gets gets' typed', sameField,
    sameBreak]
  obtain ⟨behind, attachmentLeaves⟩ := leaves_ne_nil_ofField child type
  subst childEq
  cases found : metadata? (.node .serviceDeclaration children) with
  | none =>
    obtain ⟨edits, shape, _⟩ :=
      Tree.exists_mapFirst_node (Token.indent pieces) .serviceDeclaration children
    rw [Tree.leaves_node] at nonempty
    rw [← found, shape]
    exact leaves_withMetadata_of_none attachmentLeaves rfl nonempty shape found
  | some old =>
    obtain ⟨oldLeaves, others, childrenEq⟩ := metadataFirst old found
    obtain ⟨isOld, _⟩ := ServiceView.exists_split_of_metadata? found
    obtain rfl : children = old :: others := childrenEq
    have isFirst : isMetadata (old.mapFirst (Token.indent pieces)) := by
      obtain ⟨sameKind, sameNode⟩ := Tree.kind_mapFirst (Token.kind_indent pieces) old
      rwa [isMetadata, sameKind, sameNode]
    have first : metadata? (.node .serviceDeclaration
        (old.mapFirst (Token.indent pieces) :: others)) =
          some (old.mapFirst (Token.indent pieces)) := by
      rw [DeclarationView.metadata?_eq_find?, Tree.children, List.find?_cons_of_pos isFirst]
    rw [Tree.mapFirst_node_cons _ _ oldLeaves, first]
    exact leaves_withMetadata_of_some _ _ others oldLeaves isOld

/-- Trivia in front of a child of a module shows in front of what the pass makes of the child. -/
theorem text_annotateChild_indent {child : Tree Token} (nonempty : child.leaves ≠ [])
    (metadataFirst : getsAttachment child → MetadataFirst child)
    (noReturn : '\r' ∉ pieces.text ++ child.text) :
    (annotateChild (child.mapFirst (Token.indent pieces))).text =
      pieces.text ++ (annotateChild child).text := by
  have sameGets : getsAttachment (child.mapFirst (Token.indent pieces)) = getsAttachment child :=
    getsAttachment_of_shifted (.inr rfl)
  cases gets : getsAttachment child with
  | false =>
    rw [annotateChild_eq_self gets, annotateChild_eq_self (sameGets.trans gets),
      text_indent pieces nonempty]
  | true =>
    have leavesEq := leaves_annotateChild_indent gets nonempty (metadataFirst gets) noReturn
    obtain ⟨front, leading, behind, type, _, annotatedLeaves, _⟩ := leaves_annotateChild gets
    have someLeaf : (annotateChild child).leaves ≠ [] := by simp [annotatedLeaves, opening]
    rw [Tree.text, leavesEq, ← Tree.leaves_mapFirst]
    exact text_indent pieces someLeaf

end ServiceAnnotator.Attachment
