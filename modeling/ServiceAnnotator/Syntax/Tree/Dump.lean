import ServiceAnnotator.Syntax.Tree.Place
import ServiceAnnotator.Text.Quoted

/-!
# Dumps of a tree

A dump lists the elements of a tree in the order of the text, a node before its children. The
textual form gives each element a line of its own, indented by its depth.
-/

namespace ServiceAnnotator

/-- Elements of the tree below a place with their depths, in pre-order. -/
structure Entry where
  depth : Nat
  start : Nat
  element : Tree Token

namespace Entry

mutual

/-- All elements of a tree in pre-order, the tree itself first. -/
def preorder (depth start : Nat) : Tree Token → List Entry
  | .leaf token => [⟨depth, start, .leaf token⟩]
  | .node kind children =>
    ⟨depth, start, .node kind children⟩ :: preorderOf (depth + 1) start children

/-- All elements of trees that follow each other. -/
def preorderOf (depth start : Nat) : List (Tree Token) → List Entry
  | [] => []
  | tree :: trees => preorder depth start tree ++ preorderOf depth (start + tree.byteLength) trees

end

/-- The span of a node with its trivia, or of a token without it. -/
def span (entry : Entry) : Span :=
  match entry.element with
  | .leaf token => token.lexemeSpan entry.start
  | .node _ _ => .ofLength entry.start entry.element.byteLength

end Entry

namespace Span

/-- A span as its two ends with two points between them. -/
def dump (span : Span) : String := toString span.start ++ ".." ++ toString span.stop

end Span

namespace Entry

/-- Kind and span of an element, and the quoted text of a token. -/
def dump (entry : Entry) : String :=
  let head := entry.element.kind.name ++ "@" ++ entry.span.dump
  match entry.element with
  | .leaf token => head ++ " " ++ String.ofList (Text.quote token.lexeme)
  | .node _ _ => head

end Entry

namespace Tree

/-- All elements of a document in pre-order. -/
def preorder (tree : Tree Token) : List Entry := Entry.preorder 0 0 tree

/-- The tree as lines, each indented by two blanks for each level of depth. -/
def dumpFrom (start : Nat) (tree : Tree Token) : String :=
  String.join ((Entry.preorder 0 start tree).map fun entry =>
    "".pushn ' ' (2 * entry.depth) ++ entry.dump ++ "\n")

/-- The lines of the tree of a whole document. -/
def dump (tree : Tree Token) : String := tree.dumpFrom 0

mutual

/-- A tree on one line: a node as a record of its kind, length and children, a token as its kind and
its quoted text. -/
def record : Tree Token → String
  | .leaf token => token.kind.name ++ " " ++ String.ofList (Text.quote token.text)
  | .node kind children =>
    "GreenNode \x7b kind: " ++ kind.name
      ++ ", text_len: " ++ toString (Tree.byteLength (.node kind children))
      ++ ", children: [" ++ recordAll children ++ "] \x7d"

/-- The records of a list of trees, separated by commas, each marked as a node or a token. -/
def recordAll : List (Tree Token) → String
  | [] => ""
  | [tree] => recordMarked tree
  | tree :: trees => recordMarked tree ++ ", " ++ recordAll trees

/-- The record of a tree with a mark that tells nodes from tokens. -/
def recordMarked : Tree Token → String
  | .leaf token => "Token(" ++ record (.leaf token) ++ ")"
  | .node kind children => "Node(" ++ record (.node kind children) ++ ")"

end

/-- A document tree on one line, without its elements. -/
def summary (tree : Tree Token) : String :=
  "SyntaxTree \x7b text_len: " ++ toString tree.byteLength ++ ", .. \x7d"

end Tree

end ServiceAnnotator
