import ServiceAnnotator.Attachment.Service
import ServiceAnnotator.Proofs.Syntax.Layout
import ServiceAnnotator.Proofs.Tree.Leaves

/-!
# The tokens of an annotated service

The annotation consists of twelve kinds of tokens around those of the type. Putting it into a
declaration adds these tokens behind the metadata, or in front of the declaration, where they take
over the trivia of its first token. All other tokens stay as they are.
-/

namespace ServiceAnnotator

namespace Attachment

/-- The tokens of an annotation in front of the type that it names. -/
def opening : List Token :=
  [.bare .atSign "@".toList, .bare .identifier annotationModule, .bare .colon ":".toList,
    .bare .identifier annotationName,
    (Token.bare .leftBrace "\x7b".toList).withLeading (Trivia.layout [' ']),
    .bare .identifier typeField,
    (Token.bare .colon ":".toList).withTrailing (Trivia.layout [' '])]

/-- The token of an annotation behind the type that it names. -/
def closing (lineBreak : List Char) : Token :=
  (Token.bare .rightBrace "\x7d".toList).withTrailing (Trivia.layout lineBreak)

/-- The tokens of an annotation. -/
theorem leaves_ofField (lineBreak : List Char) (type : Tree Token) :
    (Fragment.withLineBreak lineBreak (ofField (field type))).leaves =
      opening ++ type.trimmed.leaves ++ [closing lineBreak] := by
  have mapping : (Fragment.mapping [field type]).leaves =
      Token.bare .leftBrace "\x7b".toList :: Token.bare .identifier typeField ::
        (Token.bare .colon ":".toList).withTrailing (Trivia.layout [' ']) ::
          (type.trimmed.leaves ++ [Token.bare .rightBrace "\x7d".toList]) := by
    simp [Fragment.mapping, field, Fragment.specificField, Fragment.separated,
      Fragment.identifier, Fragment.token, Fragment.spaced]
  have unbroken : (Tree.node .annotationAttachment (Fragment.token .atSign "@" ::
      Fragment.qualifiedReference annotationModule annotationName ::
        [(Fragment.mapping [field type]).mapFirst
          (Token.withLeading (Trivia.layout [' ']))])).leaves =
      opening ++ type.trimmed.leaves ++ [Token.bare .rightBrace "\x7d".toList] := by
    simp [mapping, opening, Fragment.qualifiedReference, Fragment.identifier, Fragment.token]
  simp only [Fragment.withLineBreak, ofField, Fragment.attachment, Option.map_some,
    Option.toList_some, Tree.leaves_mapLast, unbroken, Tree.changeLast_concat]
  rfl

@[simp] theorem text_opening :
    opening.flatMap Token.text = "@http:ServiceConfig \x7bserviceType: ".toList := by
  rfl

@[simp] theorem text_closing (lineBreak : List Char) :
    (closing lineBreak).text = '\x7d' :: lineBreak := by
  simp [closing, Token.bare]

/-- The text of an annotation is a line of its own that names the type. -/
theorem text_ofField (lineBreak : List Char) (type : Tree Token) :
    (Fragment.withLineBreak lineBreak (ofField (field type))).text =
      "@http:ServiceConfig \x7bserviceType: ".toList ++ type.trimmedText ++ '\x7d' :: lineBreak := by
  rw [Tree.text, leaves_ofField, List.flatMap_append, List.flatMap_append, text_opening]
  simp [Tree.trimmedText, Tree.text]

end Attachment

/-! ## Metadata of a declaration -/

namespace DeclarationView

variable {α : Type} [Kinded α]

/-- Whether a child of a declaration is its metadata. -/
def isMetadata (child : Tree α) : Bool := child.isNode && child.kind == .metadata

theorem metadata?_eq_find? (node : Tree α) :
    metadata? node = node.children.find? isMetadata := by
  simp only [metadata?, Tree.node?, Tree.nodeWhere?, Tree.childNodes, List.find?_filter]
  congr 1
  funext child
  rw [Bool.eq_iff_iff]
  simp [isMetadata]

end DeclarationView

namespace ServiceView

open DeclarationView (isMetadata metadata? metadata?_eq_find?)

theorem replaceMetadata?_eq_none {α : Type} [Kinded α] (metadata : Tree α)
    {children : List (Tree α)} (none : children.find? isMetadata = none) :
    replaceMetadata? metadata children = .none := by
  induction children with
  | nil => rfl
  | cons child children ih =>
    simp only [List.find?_eq_none, Bool.not_eq_true] at none ih
    have first : (child.isNode && child.kind == .metadata) = false := none child (by simp)
    rw [replaceMetadata?, first, if_neg Bool.false_ne_true,
      ih fun other inside => none other (by simp [inside]), Option.map_none]

/-- Metadata is replaced in its place, and only the first metadata counts. -/
theorem replaceMetadata?_append {α : Type} [Kinded α] (metadata : Tree α)
    {before after : List (Tree α)} {old : Tree α} (isOld : isMetadata old)
    (first : ∀ child ∈ before, isMetadata child = false) :
    replaceMetadata? metadata (before ++ old :: after) = some (before ++ metadata :: after) := by
  induction before with
  | nil =>
    have here : (old.isNode && old.kind == .metadata) = true := isOld
    simp [replaceMetadata?, here]
  | cons child before ih =>
    have passed : (child.isNode && child.kind == .metadata) = false := first child (by simp)
    rw [List.cons_append, replaceMetadata?, passed, if_neg Bool.false_ne_true,
      ih (fun other inside => first other (by simp [inside])), Option.map_some,
      List.cons_append]

/-- A declaration with metadata, taken apart at its first metadata. -/
theorem exists_split_of_metadata? {α : Type} [Kinded α] {node old : Tree α}
    (found : metadata? node = some old) :
    isMetadata old ∧ ∃ before after, node.children = before ++ old :: after ∧
      ∀ child ∈ before, isMetadata child = false := by
  rw [metadata?_eq_find?, List.find?_eq_some_iff_append] at found
  obtain ⟨isOld, before, after, split, first⟩ := found
  refine ⟨isOld, before, after, split, ?_⟩
  intro child inside
  simpa using first child inside

theorem exists_node_of_isMetadata {α : Type} [Kinded α] {child : Tree α} (isOld : isMetadata child) :
    ∃ parts, child = .node .metadata parts := by
  cases child with
  | leaf item => cases isOld
  | node kind parts =>
    obtain rfl : kind = .metadata := by simpa [isMetadata, Tree.isNode, Tree.kind] using isOld
    exact ⟨parts, rfl⟩

theorem withMetadata_append (metadata : Tree Token) (kind : Kind) {old : Tree Token}
    {before after : List (Tree Token)} (isOld : isMetadata old)
    (first : ∀ child ∈ before, isMetadata child = false) :
    withMetadata metadata (.node kind (before ++ old :: after)) =
      .node kind (before ++ metadata :: after) := by
  simp [withMetadata, Tree.children, Tree.withChildren,
    replaceMetadata?_append metadata isOld first]

/-- Without trivia in front the first token of a declaration has none to lose. -/
theorem modifyHead_withoutLeading {kind : Kind} {children : List (Tree Token)}
    (bare : leadingTrivia (.node kind children) = []) :
    (Tree.leavesOf children).modifyHead Token.withoutLeading = Tree.leavesOf children := by
  cases leavesEq : Tree.leavesOf children with
  | nil => rfl
  | cons token tokens =>
    have clean : token.leading = [] := by
      simpa [leadingTrivia, Tree.firstLeaf?, leavesEq] using bare
    rw [List.modifyHead_cons, Token.withoutLeading, ← clean, Token.withLeading_leading]

/-- Where there was no metadata, its first token takes over the trivia in front of the
declaration. -/
theorem leaves_withMetadata {metadata : Tree Token} (kind : Kind) (children : List (Tree Token))
    {sign : Token} {behind : List Token} (metadataLeaves : metadata.leaves = sign :: behind)
    (bare : sign.leading = []) (none : metadata? (.node kind children) = none) :
    (withMetadata metadata (.node kind children)).leaves =
      sign.withLeading (leadingTrivia (.node kind children)) :: behind ++
        (Tree.leavesOf children).modifyHead Token.withoutLeading := by
  rw [metadata?_eq_find?] at none
  rw [withMetadata, replaceMetadata?_eq_none metadata none]
  cases trivia : leadingTrivia (.node kind children) with
  | nil =>
    have signEq : sign.withLeading [] = sign := by rw [← bare]; rfl
    have firstEq := modifyHead_withoutLeading trivia
    simp [Tree.prepend, Tree.withChildren, Tree.children, metadataLeaves, signEq, firstEq]
  | cons piece pieces =>
    obtain ⟨edits, shape, editsEq⟩ :=
      Tree.exists_mapFirst_node Token.withoutLeading kind children
    simp [shape, Tree.prepend, Tree.withChildren, Tree.children, metadataLeaves, editsEq]

end ServiceView

end ServiceAnnotator
