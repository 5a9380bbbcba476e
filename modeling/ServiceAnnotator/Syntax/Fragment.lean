import ServiceAnnotator.Syntax.Tree.Edges

/-!
# Synthesized fragments

Fragments are trees that no text was read into. Their tokens carry just enough trivia to print in
the usual layout, such as `@http:ServiceConfig {serviceType: Svc}` on a line of its own.
-/

namespace ServiceAnnotator.Fragment

/-- A leaf of a token without trivia. -/
def token (kind : Kind) (text : String) : Tree Token := .leaf (.bare kind text.toList)

/-- A leaf of an identifier. -/
def identifier (text : List Char) : Tree Token := .leaf (.bare .identifier text)

/-- A leaf of a token with a blank behind it. -/
def spaced (kind : Kind) (text : String) : Tree Token :=
  .leaf ((Token.bare kind text.toList).withTrailing (Trivia.layout [' ']))

/-- A reference by a single name. -/
def simpleReference (name : List Char) : Tree Token :=
  .node .simpleNameReference [identifier name]

/-- A reference to a name of a module. -/
def qualifiedReference (moduleName name : List Char) : Tree Token :=
  .node .qualifiedNameReference [identifier moduleName, token .colon ":", identifier name]

/-- A field with a key and a value, of which the trivia at both ends is dropped. -/
def specificField (key : List Char) (value : Tree Token) : Tree Token :=
  .node .specificField [identifier key, spaced .colon ":", value.trimmed]

/-- Fields with commas between them. -/
def separated : List (Tree Token) → List (Tree Token)
  | [] => []
  | [field] => [field]
  | field :: fields => field :: spaced .comma "," :: separated fields

/-- Fields in braces. -/
def mapping (fields : List (Tree Token)) : Tree Token :=
  .node .mappingConstructor
    (token .leftBrace "\x7b" :: separated fields ++ [token .rightBrace "\x7d"])

/-- A tree whose last token is followed by a line break and by nothing else. -/
def withLineBreak (lineBreak : List Char) (tree : Tree Token) : Tree Token :=
  tree.mapLast (Token.withTrailing (Trivia.layout lineBreak))

/-- An annotation attachment on a line of its own, with a blank in front of its mapping. -/
def attachment (reference : Tree Token) (value : Option (Tree Token)) : Tree Token :=
  let value := value.map (Tree.mapFirst (Token.withLeading (Trivia.layout [' '])))
  withLineBreak ['\n']
    (.node .annotationAttachment (token .atSign "@" :: reference :: value.toList))

/-- Metadata that holds the given attachments. -/
def metadata (attachments : List (Tree Token)) : Tree Token := .node .metadata attachments

end ServiceAnnotator.Fragment
