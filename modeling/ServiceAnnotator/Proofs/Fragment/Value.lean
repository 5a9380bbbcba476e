import ServiceAnnotator.Proofs.Attachment.Reread
import ServiceAnnotator.Proofs.Scan.Alone
import ServiceAnnotator.Proofs.Tree.Edges
import ServiceAnnotator.Syntax.Fragment
import ServiceAnnotator.Syntax.View

/-!
# Synthesized mappings

Names and mappings of names, nested to any depth, with the trees that are synthesized for them. The
tokens of such a tree are the braces, keys and names of the mapping with colons and commas between
them, and whether a tree that was read is the mapping again is told by its keys and values.
-/

namespace ServiceAnnotator.Fragment

open Attachment (closing spacedColon)

/-! ## Names and values -/

/-- A text that is an identifier on its own. -/
structure Identifier where
  text : List Char
  alone : Tokenizer.ReadsAlone text .identifier

/-- A name, with a module in front of it or without. -/
inductive Name where
  | simple (name : Identifier)
  | qualified (moduleName name : Identifier)

mutual

/-- A name, or a mapping of keys to values. -/
inductive Value where
  | name (name : Name)
  | mapping (fields : Fields)

/-- Keys with their values, in order. -/
inductive Fields where
  | nil
  | cons (key : Identifier) (value : Value) (fields : Fields)

end

/-- The reference that is synthesized for a name. -/
def Name.tree : Name → Tree Token
  | .simple name => simpleReference name.text
  | .qualified moduleName name => qualifiedReference moduleName.text name.text

mutual

/-- The tree that is synthesized for a value. -/
def Value.tree : Value → Tree Token
  | .name name => name.tree
  | .mapping fields => Fragment.mapping fields.trees

/-- The fields that are synthesized for keys and values. -/
def Fields.trees : Fields → List (Tree Token)
  | .nil => []
  | .cons key value fields => specificField key.text value.tree :: fields.trees

end

/-! ## Reading back -/

mutual

/-- Whether a tree is a value again: the expression of a name, or a mapping constructor with the
fields of a mapping. -/
def Value.ReadsBack : Value → Tree Token → Prop
  | .name name, tree => tree.isNode ∧ tree.kind = .expression ∧ tree.trimmedText = name.tree.text
  | .mapping fields, tree =>
    tree.isNode ∧ tree.kind = .mappingConstructor ∧ fields.ReadBack (MappingView.fields tree)

/-- Whether trees are fields with the same keys in the same order and with the same values. -/
def Fields.ReadBack : Fields → List (Tree Token) → Prop
  | .nil, trees => trees = []
  | .cons key value fields, trees =>
    ∃ field behind, trees = field :: behind ∧ field.kind = .specificField ∧
      (MappingView.key? field).map Token.lexeme = some key.text ∧
      (∃ found, MappingView.value? field = some found ∧ value.ReadsBack found) ∧
      fields.ReadBack behind

end

/-! ## Tokens -/

/-- An identifier without trivia. -/
def Identifier.token (identifier : Identifier) : Token := .bare .identifier identifier.text

/-- The colon of a qualified name. -/
def colon : Token := .bare .colon ":".toList

/-- The comma between two fields. -/
def comma : Token := (Token.bare .comma ",".toList).withTrailing (Trivia.layout [' '])

def leftBrace : Token := .bare .leftBrace "\x7b".toList

def rightBrace : Token := .bare .rightBrace "\x7d".toList

/-- The tokens of a name. -/
def Name.tokens : Name → List Token
  | .simple name => [name.token]
  | .qualified moduleName name => [moduleName.token, colon, name.token]

mutual

/-- The tokens of a value. -/
def Value.tokens : Value → List Token
  | .name name => name.tokens
  | .mapping fields => leftBrace :: (fields.tokens [] ++ [rightBrace])

/-- The tokens of fields, with a comma in front of each but the first one. What stands in front of
the first one is given. -/
def Fields.tokens (front : List Token) : Fields → List Token
  | .nil => []
  | .cons key value fields =>
    front ++ key.token :: spacedColon :: (value.tokens ++ fields.tokens [comma])

end

/-- Tokens without trivia at their ends. -/
def Trimmed (tokens : List Token) : Prop :=
  Tree.changeLast Token.withoutTrailing (tokens.modifyHead Token.withoutLeading) = tokens

theorem Name.trimmed_tokens (name : Name) : Trimmed name.tokens := by
  cases name <;> rfl

theorem Value.trimmed_tokens (value : Value) : Trimmed value.tokens := by
  cases value with
  | name name =>
    rw [Value.tokens]
    exact name.trimmed_tokens
  | mapping fields =>
    rw [Value.tokens, Trimmed, List.modifyHead_cons, ← List.cons_append, Tree.changeLast_concat]
    rfl

theorem Name.leaves_tree (name : Name) : name.tree.leaves = name.tokens := by
  cases name <;> simp [Name.tree, Name.tokens, simpleReference, qualifiedReference, identifier, token,
    Identifier.token, colon]

theorem leaves_specificField (key : Identifier) (value : Tree Token) :
    (specificField key.text value).leaves = key.token :: spacedColon :: value.trimmed.leaves := by
  simp [specificField, identifier, spaced, Identifier.token, spacedColon]

/-- Fields behind another one stand behind a comma. -/
theorem leavesOf_separated_cons (first : Tree Token) (fields : Fields) :
    Tree.leavesOf (separated (first :: fields.trees)) =
      first.leaves ++ match fields with
        | .nil => []
        | .cons .. => comma :: Tree.leavesOf (separated fields.trees) := by
  cases fields with
  | nil => simp [Fields.trees, separated]
  | cons key value fields => simp [Fields.trees, separated, spaced, comma]

mutual

/-- The tree of a value has the tokens of the value. -/
theorem Value.leaves_tree (value : Value) : value.tree.leaves = value.tokens := by
  cases value with
  | name name =>
    rw [Value.tree, Value.tokens]
    exact name.leaves_tree
  | mapping fields =>
    have inside := fields.leavesOf_separated
    simp [Value.tree, Value.tokens, Fragment.mapping, token, leftBrace, rightBrace, inside]

theorem Fields.leavesOf_separated (fields : Fields) :
    Tree.leavesOf (separated fields.trees) = fields.tokens [] := by
  cases fields with
  | nil => simp [Fields.trees, Fields.tokens, separated]
  | cons key value fields =>
    have first := value.leaves_tree
    have trimmed : value.tree.trimmed.leaves = value.tokens := by
      rw [Tree.leaves_trimmed, first]
      exact value.trimmed_tokens
    have behind := fields.leavesOf_separated
    rw [Fields.trees, leavesOf_separated_cons, leaves_specificField, trimmed, Fields.tokens]
    cases fields with
    | nil => simp [Fields.tokens]
    | cons key value fields => simp [behind, Fields.tokens]

end

/-! ## The annotation -/

/-- The tokens of an annotation in front of its fields, as they are read: the blank in front of the
mapping belongs to the name. -/
def opening (moduleName name : Identifier) : List Token :=
  [.bare .atSign "@".toList, moduleName.token, colon,
    name.token.withTrailing (Trivia.layout [' ']), leftBrace]

/-- The tokens of an annotation, as they are read. -/
def annotationTokens (moduleName name : Identifier) (fields : Fields) : List Token :=
  opening moduleName name ++ (fields.tokens [] ++ [closing ['\n']])

/-- The text of a synthesized annotation. -/
theorem text_attachment (moduleName name : Identifier) (fields : Fields) :
    (metadata [attachment (qualifiedReference moduleName.text name.text)
      (some (Fragment.mapping fields.trees))]).text =
      (annotationTokens moduleName name fields).flatMap Token.text := by
  have inside : (Fragment.mapping fields.trees).leaves =
      leftBrace :: (fields.tokens [] ++ [rightBrace]) := by
    have same := (Value.mapping fields).leaves_tree
    rwa [Value.tree, Value.tokens] at same
  have unbroken : (Tree.node .annotationAttachment (token .atSign "@" ::
      qualifiedReference moduleName.text name.text ::
        [(Fragment.mapping fields.trees).mapFirst
          (Token.withLeading (Trivia.layout [' ']))])).leaves =
      [.bare .atSign "@".toList, moduleName.token, colon, name.token,
        leftBrace.withLeading (Trivia.layout [' '])] ++ fields.tokens [] ++ [rightBrace] := by
    simp [inside, qualifiedReference, identifier, token, Identifier.token, colon]
  have leavesEq : (attachment (qualifiedReference moduleName.text name.text)
      (some (Fragment.mapping fields.trees))).leaves =
      [.bare .atSign "@".toList, moduleName.token, colon, name.token,
        leftBrace.withLeading (Trivia.layout [' '])] ++ fields.tokens [] ++ [closing ['\n']] := by
    rw [attachment, withLineBreak, Tree.leaves_mapLast]
    exact (congrArg _ unbroken).trans (Tree.changeLast_concat ..)
  rw [metadata, Tree.text_node, Tree.textOf_cons, Tree.textOf_nil, List.append_nil, Tree.text, leavesEq]
  simp [annotationTokens, opening, Identifier.token, leftBrace]
  rfl

example :
    (metadata [attachment (qualifiedReference "http".toList "ServiceConfig".toList)
      (some (mapping [specificField "a".toList (simpleReference "A".toList),
        specificField "b".toList (mapping [])]))]).text =
      "@http:ServiceConfig \x7ba: A, b: \x7b\x7d\x7d\n".toList := by
  rfl

end ServiceAnnotator.Fragment
