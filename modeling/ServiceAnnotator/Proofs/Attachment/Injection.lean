import ServiceAnnotator.Proofs.Attachment.Selection
import ServiceAnnotator.Proofs.Tree.FirstLeaf

/-!
# The form of an annotated service

A service gets its annotation behind everything that its metadata holds. Where it has no metadata,
the annotation comes first and takes over the trivia in front of the service. Nothing else in the
service changes, so it is not annotated twice, whether or not it was read from a text.
-/

namespace ServiceAnnotator

theorem Tree.isNode_trimmed (tree : Tree Token) : tree.trimmed.isNode = tree.isNode := by
  cases tree with
  | leaf token => rfl
  | node kind children =>
    rw [trimmed, mapFirst_node, mapLast, mapLast?]
    cases mapLastOf? Token.withoutTrailing
      ((mapFirstOf? Token.withoutLeading children).getD children) <;> rfl

namespace Attachment

open DeclarationView (isMetadata metadata? metadata?_eq_find?)

/-! ## The annotation -/

/-- Whether an annotation says, by a qualified reference and a mapping with one field, that a
service has a type. -/
structure NamesType (attachment type : Tree Token) : Prop where
  isNode : attachment.isNode
  kind : attachment.kind = .annotationAttachment
  sign : attachment.firstLeaf?.map Token.kind = some .atSign
  /-- The reference is qualified and names the annotation of the module. -/
  reference : ∃ reference moduleName name,
    AttachmentView.reference? attachment = some reference ∧
      reference.kind = .qualifiedNameReference ∧
      ReferenceView.first? reference = some moduleName ∧ moduleName.lexeme = "http".toList ∧
      ReferenceView.identifier? reference = some name ∧ name.lexeme = "ServiceConfig".toList
  /-- The one field of the mapping has the trimmed type as its value. -/
  mapping : ∃ mapping field key,
    AttachmentView.value? attachment = some mapping ∧ MappingView.fields mapping = [field] ∧
      field.kind = .specificField ∧
      MappingView.key? field = some key ∧ key.lexeme = "serviceType".toList ∧
      MappingView.value? field = some type.trimmed

/-- The annotation for a type, with trivia in front and a line break behind. -/
def attachmentFor (leading : Trivia) (lineBreak : List Char) (type : Tree Token) : Tree Token :=
  .node .annotationAttachment [.leaf ((Token.bare .atSign "@".toList).withLeading leading),
    Fragment.qualifiedReference annotationModule annotationName,
    .node .mappingConstructor [
      .leaf ((Token.bare .leftBrace "\x7b".toList).withLeading (Trivia.layout [' '])),
      field type, .leaf (closing lineBreak)]]

theorem namesType_attachmentFor (leading : Trivia) (lineBreak : List Char) {type : Tree Token}
    (isNode : type.isNode) : NamesType (attachmentFor leading lineBreak type) type where
  isNode := rfl
  kind := rfl
  sign := rfl
  reference := ⟨_, _, _, rfl, rfl, rfl, rfl, rfl, rfl⟩
  mapping := by
    refine ⟨_, _, _, rfl, rfl, rfl, rfl, rfl, ?_⟩
    have inner : type.trimmed.isNode := (Tree.isNode_trimmed type).trans isNode
    have nodes : (field type).childNodes = [type.trimmed] := List.filter_cons_of_pos inner
    rw [MappingView.value?, nodes, List.head?_cons]

/-! ## The service around it -/

/-- Whether the children of a service come from other ones by putting an annotation into the
metadata, or into new metadata in front of them. -/
inductive Injected (attachment : Tree Token) : List (Tree Token) → List (Tree Token) → Prop
  /-- The annotation stands behind all that the first metadata holds. -/
  | merged {before parts after : List (Tree Token)} :
      (∀ child ∈ before, isMetadata child = false) →
        attachment.firstLeaf?.map Token.leading = some [] →
        Injected attachment (before ++ .node .metadata parts :: after)
          (before ++ .node .metadata (parts ++ [attachment]) :: after)
  /-- The annotation stands in front, with the trivia of the first token, which keeps none of it.
  Forms and tokens of the other children tell that they are what they were up to this trivia. -/
  | added {children rest : List (Tree Token)} :
      (∀ child ∈ children, isMetadata child = false) →
        attachment.firstLeaf?.map Token.leading =
          some (((Tree.leavesOf children).head?.map Token.leading).getD []) →
        Tree.mapAll Token.withoutLeading rest = Tree.mapAll Token.withoutLeading children →
        Tree.leavesOf rest = (Tree.leavesOf children).modifyHead Token.withoutLeading →
        Injected attachment children (.node .metadata [attachment] :: rest)

/-- Where a service has no metadata, the annotation is put in front of it. -/
theorem exists_withMetadata_of_none (lineBreak : List Char) (type : Tree Token) {kind : Kind}
    {children : List (Tree Token)} (none : metadata? (.node kind children) = none) :
    ∃ leading rest,
      ServiceView.withMetadata (mergeInto .none (attachmentFor [] lineBreak type))
        (.node kind children) =
          .node kind (.node .metadata [attachmentFor leading lineBreak type] :: rest) ∧
      Injected (attachmentFor leading lineBreak type) children
        (.node .metadata [attachmentFor leading lineBreak type] :: rest) := by
  rw [metadata?_eq_find?] at none
  have noMetadata : ∀ child ∈ children, isMetadata child = false := by
    simpa [Tree.children] using none
  have leadingEq : ((Tree.leavesOf children).head?.map Token.leading).getD [] =
      ServiceView.leadingTrivia (.node kind children) := by
    rw [ServiceView.leadingTrivia, Tree.firstLeaf?, Tree.leaves_node]
  rw [mergeInto, ServiceView.withMetadata, ServiceView.replaceMetadata?_eq_none _ none]
  cases trivia : ServiceView.leadingTrivia (.node kind children) with
  | nil =>
    refine ⟨[], children, rfl, .added noMetadata ?_ rfl ?_⟩
    · rw [leadingEq, trivia]
      rfl
    · exact (ServiceView.modifyHead_withoutLeading trivia).symm
  | cons piece pieces =>
    -- The first token, at any depth, gives its trivia to the sign.
    obtain ⟨edits, shape, editsEq⟩ := Tree.exists_mapFirst_node Token.withoutLeading kind children
    have form := Tree.map_mapFirst (f := Token.withoutLeading) (g := Token.withoutLeading)
      (fun _ => rfl) (.node kind children)
    rw [shape, Tree.map_node, Tree.map_node, Tree.node.injEq] at form
    refine ⟨piece :: pieces, edits, ?_, .added noMetadata ?_ form.2 editsEq⟩
    · simp only [shape]
      rfl
    · rw [leadingEq, trivia]
      rfl

/-- Where a service has metadata, the annotation is put behind all that this holds. -/
theorem withMetadata_of_some (lineBreak : List Char) (type : Tree Token) (kind : Kind)
    {before : List (Tree Token)} (parts after : List (Tree Token))
    (first : ∀ child ∈ before, isMetadata child = false) :
    ServiceView.withMetadata
        (mergeInto (some (.node .metadata parts)) (attachmentFor [] lineBreak type))
        (.node kind (before ++ .node .metadata parts :: after)) =
      .node kind (before ++ .node .metadata (parts ++ [attachmentFor [] lineBreak type]) :: after) :=
  ServiceView.withMetadata_append _ kind rfl first

/-- A service that got the annotation carries it, so it does not get another one. -/
theorem annotate?_withMetadata (lineBreak : List Char) (type : Tree Token) (kind : Kind)
    (children : List (Tree Token)) :
    annotate? (ServiceView.withMetadata (mergeInto (metadata? (.node kind children))
      (attachmentFor [] lineBreak type)) (.node kind children)) = none := by
  have named : names annotationModule annotationName
      (Fragment.qualifiedReference annotationModule annotationName).trimmedText = true := by
    decide
  rw [annotate?_eq_none_iff, isMissing, attachmentFor, Fragment.qualifiedReference,
    present_metadata?_withMetadata named]
  simp

/-- A service that lacks the annotation for its type gets it, as the last part of its metadata, and
stays the same otherwise. The result is not annotated again. -/
theorem annotate?_injects {children : List (Tree Token)} {type : Tree Token}
    (typed : ServiceView.type? (.node .serviceDeclaration children) = some type)
    (missing : present annotationModule annotationName
      (metadata? (.node .serviceDeclaration children)) = false) :
    ∃ attachment results,
      annotate? (.node .serviceDeclaration children) =
        some (.node .serviceDeclaration results) ∧
      NamesType attachment type ∧
      Injected attachment children results ∧
      metadata? (.node .serviceDeclaration results) = some (.node .metadata
        (((metadata? (.node .serviceDeclaration children)).map Tree.children).getD [] ++
          [attachment])) ∧
      annotate? (.node .serviceDeclaration results) = none := by
  let service : Tree Token := .node .serviceDeclaration children
  have isNode : type.isNode := by
    have inside := List.mem_of_find?_eq_some typed
    rw [Tree.childNodes, List.mem_filter] at inside
    exact inside.2
  have changed : annotate? service = some (ServiceView.withMetadata (mergeInto (metadata? service)
      (attachmentFor [] (lineBreak service) type)) service) := by
    simp only [annotate?, service, typed, missing, withLineBreak_ofField]
    rfl
  have again := annotate?_withMetadata (lineBreak service) type .serviceDeclaration children
  cases found : metadata? service with
  | none =>
    obtain ⟨leading, rest, shape, injected⟩ :=
      exists_withMetadata_of_none (lineBreak service) type found
    rw [found, shape] at changed
    rw [found, shape] at again
    exact ⟨_, _, changed, namesType_attachmentFor leading _ isNode, injected,
      rfl, again⟩
  | some old =>
    obtain ⟨isOld, before, after, split, first⟩ := ServiceView.exists_split_of_metadata? found
    obtain ⟨parts, rfl⟩ := ServiceView.exists_node_of_isMetadata isOld
    have childrenEq : children = before ++ .node .metadata parts :: after := split
    have shape := withMetadata_of_some (lineBreak service) type .serviceDeclaration parts after first
    rw [← childrenEq] at shape
    rw [found, shape] at changed
    rw [found, shape] at again
    refine ⟨_, _, changed, namesType_attachmentFor [] _ isNode, ?_, metadata?_append rfl first, again⟩
    rw [childrenEq]
    exact .merged first rfl

/-- A service of which the first token lies in a node and has a line break in front. -/
theorem annotate?_injects_isolated :
    let qualifier : Tree Token := .node .error
      [.leaf ⟨[⟨.newline, ['\n']⟩], .isolatedKw, "isolated".toList, [⟨.whitespace, [' ']⟩]⟩]
    let type : Tree Token := .node .simpleNameReference
      [.leaf ⟨[⟨.whitespace, [' ']⟩], .identifier, ['T'], [⟨.newline, ['\r', '\n']⟩]⟩]
    ServiceView.type? (.node .serviceDeclaration [qualifier, type]) = some type ∧
      ∃ attachment results,
        annotate? (.node .serviceDeclaration [qualifier, type]) =
          some (.node .serviceDeclaration results) ∧
        NamesType attachment type ∧
        Injected attachment [qualifier, type] results ∧
        metadata? (.node .serviceDeclaration results) = some (.node .metadata [attachment]) ∧
        annotate? (.node .serviceDeclaration results) = none := by
  intro qualifier type
  have typed : ServiceView.type? (.node .serviceDeclaration [qualifier, type]) = some type := rfl
  exact ⟨typed, annotate?_injects typed rfl⟩

end Attachment

end ServiceAnnotator
