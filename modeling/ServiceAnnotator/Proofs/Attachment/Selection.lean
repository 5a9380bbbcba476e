import Mathlib.Data.List.Forall2
import ServiceAnnotator.Proofs.Attachment.Module
import ServiceAnnotator.Proofs.Attachment.Service

/-!
# What the pass selects

The pass changes the services that have a declared type and lack the annotation, each in its place,
and nothing else. A service that got the annotation carries it, whether or not the tree was read
from a text, so the pass on its own result selects nothing.
-/

namespace ServiceAnnotator.Attachment

open DeclarationView (isMetadata metadata? metadata?_eq_find?)

/-! ## Metadata with the annotation -/

/-- Metadata put in front of a declaration, or in place of other metadata, is its metadata. -/
theorem metadata?_append {kind : Kind} {before after : List (Tree Token)} {metadata : Tree Token}
    (isNew : isMetadata metadata) (first : ∀ child ∈ before, isMetadata child = false) :
    metadata? (.node kind (before ++ metadata :: after)) = some metadata := by
  rw [metadata?_eq_find?, Tree.children, List.find?_append,
    List.find?_eq_none.mpr fun child inside => by simp [first child inside], Option.none_or,
    List.find?_cons_of_pos isNew]

section Merged

variable {parts : List (Tree Token)}
  (named : names annotationModule annotationName
    (Tree.node .qualifiedNameReference parts).trimmedText = true)
  (values : List (Tree Token))

include named

/-- An annotation is found by the module and the name of its reference, whatever it holds. -/
theorem refersTo_of_names (sign : Token) :
    refersTo annotationModule annotationName (.node .annotationAttachment
      (.leaf sign :: .node .qualifiedNameReference parts :: values)) = true := by
  have reference : AttachmentView.reference? (.node .annotationAttachment
      (.leaf sign :: .node .qualifiedNameReference parts :: values)) =
      some (.node .qualifiedNameReference parts) := rfl
  rw [refersTo, reference]
  simpa [Tree.kind] using named

/-- Metadata with the annotation among its parts carries it. -/
theorem present_of_mem {sign : Token} {metadata : Tree Token}
    (inside : .node .annotationAttachment
      (.leaf sign :: .node .qualifiedNameReference parts :: values) ∈ metadata.children) :
    present annotationModule annotationName (some metadata) = true := by
  refine List.any_eq_true.mpr ⟨_, ?_, refersTo_of_names named values sign⟩
  rw [MetadataView.attachments, Tree.nodesWhere, Tree.childNodes, List.mem_filter, List.mem_filter]
  exact ⟨⟨inside, rfl⟩, rfl⟩

/-- A declaration into which the annotation was put carries it. -/
theorem present_metadata?_withMetadata (sign : Token) (kind : Kind)
    (children : List (Tree Token)) :
    present annotationModule annotationName (metadata? (ServiceView.withMetadata
      (mergeInto (metadata? (.node kind children)) (.node .annotationAttachment
        (.leaf sign :: .node .qualifiedNameReference parts :: values)))
      (.node kind children))) = true := by
  cases found : metadata? (.node kind children) with
  | none =>
    have noMetadata := found
    rw [metadata?_eq_find?] at noMetadata
    rw [mergeInto, ServiceView.withMetadata, ServiceView.replaceMetadata?_eq_none _ noMetadata]
    cases ServiceView.leadingTrivia (.node kind children) with
    | nil => exact present_of_mem named values (List.mem_singleton_self _)
    | cons piece pieces =>
      -- The sign takes over the trivia in front of the declaration.
      obtain ⟨edits, shape, _⟩ := Tree.exists_mapFirst_node Token.withoutLeading kind children
      have added : (Fragment.metadata [.node .annotationAttachment
          (.leaf sign :: .node .qualifiedNameReference parts :: values)]).mapFirst
            (Token.withLeading (piece :: pieces)) =
          .node .metadata [.node .annotationAttachment
            (.leaf (sign.withLeading (piece :: pieces)) ::
              .node .qualifiedNameReference parts :: values)] := rfl
      simp only [shape, added]
      exact present_of_mem named values (List.mem_singleton_self _)
  | some old =>
    obtain ⟨isOld, before, after, split, first⟩ := ServiceView.exists_split_of_metadata? found
    obtain rfl : children = before ++ old :: after := split
    obtain ⟨others, rfl⟩ := ServiceView.exists_node_of_isMetadata isOld
    rw [ServiceView.withMetadata_append _ _ isOld first, mergeInto, Tree.append,
      Tree.withChildren, Tree.children, metadata?_append rfl first]
    exact present_of_mem named values (List.mem_append_right _ (List.mem_singleton_self _))

end Merged

/-! ## The pass on its own result -/

/-- The annotation has an at sign and a reference by its module and its name in front. -/
theorem withLineBreak_ofField (lineBreak : List Char) (type : Tree Token) :
    Fragment.withLineBreak lineBreak (ofField (field type)) =
      .node .annotationAttachment [.leaf (.bare .atSign "@".toList),
        Fragment.qualifiedReference annotationModule annotationName,
        .node .mappingConstructor [
          .leaf ((Token.bare .leftBrace "\x7b".toList).withLeading (Trivia.layout [' '])),
          field type, .leaf (closing lineBreak)]] := rfl

/-- A child of a module does not get the annotation twice. -/
theorem getsAttachment_annotateChild (child : Tree Token) :
    getsAttachment (annotateChild child) = false := by
  cases gets : getsAttachment child with
  | false => rw [annotateChild_eq_self gets, gets]
  | true =>
    obtain ⟨children, type, childEq, typed⟩ := exists_of_getsAttachment gets
    have named : names annotationModule annotationName
        (Fragment.qualifiedReference annotationModule annotationName).trimmedText = true := by
      decide
    have carries : present annotationModule annotationName (metadata? (annotateChild child)) := by
      rw [annotateChild_eq_of_gets gets typed, withLineBreak_ofField, childEq]
      exact present_metadata?_withMetadata named _ _ _ _
    rw [getsAttachment, isMissing, carries]
    simp

/-- The pass leaves exactly the children alone that do not get the annotation. -/
theorem annotateChild_eq_self_iff (child : Tree Token) :
    annotateChild child = child ↔ getsAttachment child = false := by
  constructor
  · intro same
    rw [← same]
    exact getsAttachment_annotateChild child
  · exact annotateChild_eq_self

/-- A child that gets the annotation becomes the annotated service; any other child stays. -/
theorem annotateChild_cases (child : Tree Token) :
    if getsAttachment child then annotate? child = some (annotateChild child)
    else annotateChild child = child := by
  split
  next gets =>
    simp only [getsAttachment, Bool.and_eq_true, beq_iff_eq] at gets
    obtain ⟨⟨isNode, isService⟩, missing⟩ := gets
    obtain ⟨annotated, changed⟩ : ∃ annotated, annotate? child = some annotated := by
      rw [← Option.ne_none_iff_exists', ne_eq, annotate?_eq_none_iff, missing]
      simp
    rw [changed, annotateChild_eq isNode isService changed]
  next kept => exact annotateChild_eq_self (Bool.eq_false_iff.mpr kept)

/-- A module is not annotated if and only if none of its children gets the annotation. -/
theorem annotateModule?_eq_none_iff (children : List (Tree Token)) :
    annotateModule? (.node .modulePart children) = none ↔
      ∀ child ∈ children, getsAttachment child = false := by
  rw [annotateModule?_modulePart]
  simp

/-- A module without a child that gets the annotation stays as it is. -/
theorem annotateTree_eq_self {children : List (Tree Token)}
    (kept : ∀ child ∈ children, getsAttachment child = false) :
    annotateTree (.node .modulePart children) = .node .modulePart children := by
  rw [annotateTree_modulePart,
    List.map_congr_left fun child inside => annotateChild_eq_self (kept child inside),
    List.map_id']

/-- The pass on any tree, read from a text or not. In a module it annotates exactly the services
with a declared type that lack the annotation, each in its place, and finds a place for every
declaration. It leaves the module as it is only if there is no such service, as in its own result.
Any other tree stays as it is. -/
theorem annotateTree_selective (children : List (Tree Token)) :
    (∃ results,
      annotateTree (.node .modulePart children) = .node .modulePart results ∧
      List.Forall₂ (fun child result =>
        if getsAttachment child then annotate? child = some result else result = child)
        children results ∧
      ModuleView.withMembers
        ((ModuleView.members (.node .modulePart children)).map annotateMember)
        (.node .modulePart children) = some (.node .modulePart results) ∧
      (annotateModule? (.node .modulePart children) = none ↔
        ∀ child ∈ children, getsAttachment child = false) ∧
      (annotateTree (.node .modulePart children) = .node .modulePart children ↔
        ∀ child ∈ children, getsAttachment child = false) ∧
      annotateModule? (.node .modulePart results) = none ∧
      annotateTree (.node .modulePart results) = .node .modulePart results) ∧
    ∀ kind ≠ .modulePart, annotateTree (.node kind children) = .node kind children := by
  have kept : ∀ result ∈ children.map annotateChild, getsAttachment result = false := by
    intro result inside
    obtain ⟨child, _, rfl⟩ := List.mem_map.mp inside
    exact getsAttachment_annotateChild child
  constructor
  · refine ⟨children.map annotateChild, annotateTree_modulePart children, ?slots,
      withMembers_annotateMember children, annotateModule?_eq_none_iff children, ?fixed,
      (annotateModule?_eq_none_iff _).mpr kept, annotateTree_eq_self kept⟩
    case slots =>
      rw [List.forall₂_map_right_iff, List.forall₂_same]
      intro child _
      exact annotateChild_cases child
    case fixed =>
      have same := List.map_inj_left (l := children) (f := annotateChild) (g := id)
      simp only [List.map_id, id, annotateChild_eq_self_iff] at same
      simp only [annotateTree_modulePart, Tree.node.injEq, true_and, same]
  · intro kind other
    have noModule : (kind == .modulePart) = false := beq_eq_false_iff_ne.mpr other
    rw [annotateTree, annotateModule?, Tree.kind, noModule, Bool.and_false, Bool.false_and,
      if_neg Bool.false_ne_true, Option.getD_none]

end ServiceAnnotator.Attachment
