import ServiceAnnotator.Syntax.Tree.Edges
import ServiceAnnotator.Syntax.Tree.Edit
import ServiceAnnotator.Text.Blank

/-!
# Views of declarations

A view finds a part of a declaration among the children of its node, by kind. Recovery after an
error may leave any part out, so every view may find nothing. Views look at kinds only and work on
trees with any leaves, such as tokens with or without positions.
-/

namespace ServiceAnnotator

namespace ModuleView

variable {α : Type} [Kinded α]

/-- The imports of a module. -/
def imports (root : Tree α) : List (Tree α) := root.nodesWhere (· == .importDeclaration)

/-- The declarations of a module. -/
def members (root : Tree α) : List (Tree α) := root.nodesWhere Kind.isMember

/-- The services of a module. -/
def services (root : Tree α) : List (Tree α) := root.nodesWhere (· == .serviceDeclaration)

/-- The token at the end of a module. -/
def endOfFile? (root : Tree α) : Option α := root.itemOfKind? .endOfFile

/-- Whether a child of a module is one of its declarations. -/
def isMember (child : Tree α) : Bool := child.isNode && child.kind.isMember

/-- The children of a module with its declarations replaced, in order, by others. There is no such
list unless each declaration has its replacement and no replacement is left over. -/
def replaceMembers : List (Tree α) → List (Tree α) → Option (List (Tree α))
  | [], [] => some []
  | [], _ :: _ => none
  | child :: children, members =>
    if isMember child then
      match members with
      | [] => none
      | member :: members => (replaceMembers children members).map (member :: ·)
    else (replaceMembers children members).map (child :: ·)

/-- The module with other declarations; imports, errors and the end of the file keep their
places. -/
def withMembers (members : List (Tree α)) (root : Tree α) : Option (Tree α) :=
  (replaceMembers root.children members).map (.node .modulePart ·)

end ModuleView

namespace ImportView

/-- The path of tokens up to the keyword of an alias, its own keyword and the semicolon left out. -/
def pathOf : List Token → List Char
  | [] => []
  | token :: tokens =>
    match token.kind with
    | .asKw => []
    | .importKw | .semicolon => pathOf tokens
    | _ => token.lexeme ++ pathOf tokens

/-- The path that an import names, without its alias. -/
def path (node : Tree Token) : List Char := pathOf node.leaves

end ImportView

namespace DeclarationView

variable {α : Type} [Kinded α]

/-- The metadata in front of a declaration of any kind. -/
def metadata? (node : Tree α) : Option (Tree α) := node.node? .metadata

end DeclarationView

namespace ServiceView

variable {α : Type} [Kinded α]

/-- The declared type of a service. -/
def type? (node : Tree α) : Option (Tree α) := node.nodeWhere? Kind.isReference

/-- The resource path at which a service is attached. -/
def path? (node : Tree α) : Option (Tree α) := node.node? .absoluteResourcePath

/-- The string literal by which a service is attached. -/
def literal? (node : Tree α) : Option α := node.itemOfKind? .stringLiteral

/-- The list of listener expressions. -/
def listeners? (node : Tree α) : Option (Tree α) := node.node? .expressionList

/-- The expressions of a list of listener expressions. -/
def expressions (list : Tree α) : List (Tree α) := list.nodesWhere (· == .expression)

/-- The body of a service. -/
def body? (node : Tree α) : Option (Tree α) := node.node? .serviceBody

/-- The segments of a resource path. -/
def segments (path : Tree Token) : List (List Char) :=
  (path.leaves.filter fun token => token.kind != .slash).map Token.lexeme

/-- The leading trivia of the first token of a declaration. -/
def leadingTrivia (node : Tree Token) : Trivia :=
  (node.firstLeaf?.map Token.leading).getD []

/-- The children of a declaration with its metadata replaced, if it has any. -/
def replaceMetadata? (metadata : Tree α) : List (Tree α) → Option (List (Tree α))
  | [] => none
  | child :: children =>
    if child.isNode && child.kind == .metadata then some (metadata :: children)
    else (replaceMetadata? metadata children).map (child :: ·)

/-- The declaration with other metadata. Where there was none, the trivia in front of the
declaration moves to the front of the metadata, so that every token keeps its text. -/
def withMetadata (metadata node : Tree Token) : Tree Token :=
  match replaceMetadata? metadata node.children with
  | some children => node.withChildren children
  | none =>
    match leadingTrivia node with
    | [] => node.prepend metadata
    | trivia =>
      (node.mapFirst Token.withoutLeading).prepend (metadata.mapFirst (Token.withLeading trivia))

end ServiceView

namespace MetadataView

variable {α : Type} [Kinded α]

/-- The documentation of a declaration. -/
def documentation? (metadata : Tree α) : Option (Tree α) := metadata.node? .documentation

/-- The annotation attachments of a declaration. -/
def attachments (metadata : Tree α) : List (Tree α) :=
  metadata.nodesWhere (· == .annotationAttachment)

/-- The text of each documentation line without its marks and the blanks around it. -/
def lines (documentation : Tree Token) : List (List Char) :=
  (documentation.leaves.filter fun token => token.kind == .documentationLine).map fun token =>
    Text.trim (token.lexeme.dropWhile (· == '#'))

end MetadataView

namespace AttachmentView

variable {α : Type} [Kinded α]

/-- The reference that an annotation attachment names. -/
def reference? (node : Tree α) : Option (Tree α) := node.nodeWhere? Kind.isReference

/-- The mapping that an annotation attachment holds. -/
def value? (node : Tree α) : Option (Tree α) := node.node? .mappingConstructor

end AttachmentView

namespace ReferenceView

variable {α : Type} [Kinded α]

/-- The name of a module in front of the colon, or the only name of a simple reference. -/
def first? (reference : Tree α) : Option α := reference.itemOfKind? .identifier

/-- The colon of a qualified reference. -/
def colon? (reference : Tree α) : Option α := reference.itemOfKind? .colon

/-- The name behind the colon of a qualified reference. -/
def identifier? (reference : Tree α) : Option α :=
  (reference.items.dropWhile fun item => Kinded.kind item != .colon).find? fun item =>
    Kinded.kind item == .identifier

end ReferenceView

namespace MappingView

variable {α : Type} [Kinded α]

/-- The fields of a mapping constructor. -/
def fields (mapping : Tree α) : List (Tree α) := mapping.nodesWhere Kind.isField

/-- The key of a field, an identifier or a string literal. -/
def key? (field : Tree α) : Option α :=
  field.items.find? fun item =>
    Kinded.kind item == .identifier || Kinded.kind item == .stringLiteral

/-- The value of a field, or the expression of a spread. -/
def value? (field : Tree α) : Option (Tree α) := field.childNodes.head?

end MappingView

end ServiceAnnotator
