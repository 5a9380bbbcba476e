/-!
# Kinds of syntax

One enumeration names what a token or a node of a syntax tree is: punctuation, keywords, names and
literals, trivia, and the constructs that the grammar builds from them.
-/

namespace ServiceAnnotator

/-- What a token or a node is. Tokens come first, up to `endOfFile`, then nodes. -/
inductive Kind where
  | atSign
  | colon
  | semicolon
  | comma
  | dot
  | ellipsis
  | leftParen
  | rightParen
  | leftBrace
  | rightBrace
  | leftBracket
  | rightBracket
  | equals
  | slash
  | question
  | operator
  | annotationKw
  | asKw
  | classKw
  | configurableKw
  | constKw
  | enumKw
  | finalKw
  | functionKw
  | importKw
  | isolatedKw
  | listenerKw
  | newKw
  | onKw
  | publicKw
  | serviceKw
  | typeKw
  | identifier
  | stringLiteral
  | templateLiteral
  | numericLiteral
  | documentationLine
  | whitespace
  | newline
  | lineComment
  | unknown
  | endOfFile
  | modulePart
  | importDeclaration
  | serviceDeclaration
  | functionDefinition
  | listenerDeclaration
  | typeDefinition
  | constDeclaration
  | classDefinition
  | enumDeclaration
  | annotationDeclaration
  | moduleVarDeclaration
  | metadata
  | documentation
  | annotationAttachment
  | qualifiedNameReference
  | simpleNameReference
  | absoluteResourcePath
  | expressionList
  | expression
  | mappingConstructor
  | specificField
  | spreadField
  | serviceBody
  | error
  | tombstone
  deriving DecidableEq, Repr, Inhabited

namespace Kind

/-- Every kind, in the order of declaration. -/
def all : List Kind :=
  [.atSign, .colon, .semicolon, .comma, .dot, .ellipsis, .leftParen, .rightParen, .leftBrace,
   .rightBrace, .leftBracket, .rightBracket, .equals, .slash, .question, .operator, .annotationKw,
   .asKw, .classKw, .configurableKw, .constKw, .enumKw, .finalKw, .functionKw, .importKw,
   .isolatedKw, .listenerKw, .newKw, .onKw, .publicKw, .serviceKw, .typeKw, .identifier,
   .stringLiteral, .templateLiteral, .numericLiteral, .documentationLine, .whitespace, .newline,
   .lineComment, .unknown, .endOfFile, .modulePart, .importDeclaration, .serviceDeclaration,
   .functionDefinition, .listenerDeclaration, .typeDefinition, .constDeclaration,
   .classDefinition, .enumDeclaration, .annotationDeclaration, .moduleVarDeclaration, .metadata,
   .documentation, .annotationAttachment, .qualifiedNameReference, .simpleNameReference,
   .absoluteResourcePath, .expressionList, .expression, .mappingConstructor, .specificField,
   .spreadField, .serviceBody, .error, .tombstone]

/-- Upper-case name by which dumps and reports show a kind. -/
def name : Kind → String
  | .atSign => "AT"
  | .colon => "COLON"
  | .semicolon => "SEMICOLON"
  | .comma => "COMMA"
  | .dot => "DOT"
  | .ellipsis => "ELLIPSIS"
  | .leftParen => "LEFT_PAREN"
  | .rightParen => "RIGHT_PAREN"
  | .leftBrace => "LEFT_BRACE"
  | .rightBrace => "RIGHT_BRACE"
  | .leftBracket => "LEFT_BRACKET"
  | .rightBracket => "RIGHT_BRACKET"
  | .equals => "EQ"
  | .slash => "SLASH"
  | .question => "QUESTION"
  | .operator => "OPERATOR"
  | .annotationKw => "ANNOTATION_KW"
  | .asKw => "AS_KW"
  | .classKw => "CLASS_KW"
  | .configurableKw => "CONFIGURABLE_KW"
  | .constKw => "CONST_KW"
  | .enumKw => "ENUM_KW"
  | .finalKw => "FINAL_KW"
  | .functionKw => "FUNCTION_KW"
  | .importKw => "IMPORT_KW"
  | .isolatedKw => "ISOLATED_KW"
  | .listenerKw => "LISTENER_KW"
  | .newKw => "NEW_KW"
  | .onKw => "ON_KW"
  | .publicKw => "PUBLIC_KW"
  | .serviceKw => "SERVICE_KW"
  | .typeKw => "TYPE_KW"
  | .identifier => "IDENTIFIER"
  | .stringLiteral => "STRING_LITERAL"
  | .templateLiteral => "TEMPLATE_LITERAL"
  | .numericLiteral => "NUMERIC_LITERAL"
  | .documentationLine => "DOCUMENTATION_LINE"
  | .whitespace => "WHITESPACE"
  | .newline => "NEWLINE"
  | .lineComment => "LINE_COMMENT"
  | .unknown => "UNKNOWN"
  | .endOfFile => "EOF"
  | .modulePart => "MODULE_PART"
  | .importDeclaration => "IMPORT_DECLARATION"
  | .serviceDeclaration => "SERVICE_DECLARATION"
  | .functionDefinition => "FUNCTION_DEFINITION"
  | .listenerDeclaration => "LISTENER_DECLARATION"
  | .typeDefinition => "TYPE_DEFINITION"
  | .constDeclaration => "CONST_DECLARATION"
  | .classDefinition => "CLASS_DEFINITION"
  | .enumDeclaration => "ENUM_DECLARATION"
  | .annotationDeclaration => "ANNOTATION_DECLARATION"
  | .moduleVarDeclaration => "MODULE_VAR_DECLARATION"
  | .metadata => "METADATA"
  | .documentation => "DOCUMENTATION"
  | .annotationAttachment => "ANNOTATION"
  | .qualifiedNameReference => "QUALIFIED_NAME_REFERENCE"
  | .simpleNameReference => "SIMPLE_NAME_REFERENCE"
  | .absoluteResourcePath => "ABSOLUTE_RESOURCE_PATH"
  | .expressionList => "EXPRESSION_LIST"
  | .expression => "EXPRESSION"
  | .mappingConstructor => "MAPPING_CONSTRUCTOR"
  | .specificField => "SPECIFIC_FIELD"
  | .spreadField => "SPREAD_FIELD"
  | .serviceBody => "SERVICE_BODY"
  | .error => "ERROR"
  | .tombstone => "TOMBSTONE"

/-- The kind of a given name. -/
def ofName? (text : String) : Option Kind := all.find? fun kind => kind.name == text

/-- Keywords with their kinds. -/
def keywords : List (String × Kind) :=
  [("annotation", .annotationKw), ("as", .asKw), ("class", .classKw),
    ("configurable", .configurableKw), ("const", .constKw), ("enum", .enumKw),
    ("final", .finalKw), ("function", .functionKw), ("import", .importKw),
    ("isolated", .isolatedKw), ("listener", .listenerKw), ("new", .newKw), ("on", .onKw),
    ("public", .publicKw), ("service", .serviceKw), ("type", .typeKw)]

/-- The keyword that a word spells, if it is one. -/
def ofKeyword? (word : List Char) : Option Kind :=
  (keywords.find? fun (spelling, _) => spelling.toList == word).map (·.2)

/-- Whitespace, line breaks and comments. -/
def isTrivia : Kind → Bool
  | .whitespace | .newline | .lineComment => true
  | _ => false

/-- Keywords of the language. -/
def isKeyword (kind : Kind) : Bool := keywords.any fun (_, keyword) => keyword == kind

/-- Kinds that a module member may start with, qualifiers included. -/
def isMemberStart : Kind → Bool
  | .atSign | .documentationLine | .publicKw | .isolatedKw | .finalKw | .configurableKw
  | .serviceKw | .functionKw | .listenerKw | .typeKw | .constKw | .classKw | .enumKw
  | .annotationKw => true
  | _ => false

/-- Kinds of the declarations that a module may contain besides imports. -/
def isMember : Kind → Bool
  | .serviceDeclaration | .functionDefinition | .listenerDeclaration | .typeDefinition
  | .constDeclaration | .classDefinition | .enumDeclaration | .annotationDeclaration
  | .moduleVarDeclaration => true
  | _ => false

/-- Kinds of references to a named entity. -/
def isReference : Kind → Bool
  | .qualifiedNameReference | .simpleNameReference => true
  | _ => false

/-- Kinds of the fields of a mapping constructor. -/
def isField : Kind → Bool
  | .specificField | .spreadField => true
  | _ => false

end Kind

/-- Things that have a kind. The grammar looks at nothing else of the tokens it reads. -/
class Kinded (α : Type) where
  kind : α → Kind

export Kinded (kind)

/-- A kind stands for itself. -/
instance : Kinded Kind where
  kind := id

end ServiceAnnotator
