import ServiceAnnotator.Syntax.Tree.Edges
import ServiceAnnotator.Syntax.Tree.Edit

/-!
# Trees with stored lengths

Positions are found without reading a text again if each node stores the number of bytes of its
text. A node is only ever made from its children, whose lengths it adds up, and an edit makes every
node on the way back to the root anew.
-/

namespace ServiceAnnotator

/-- A tree of tokens, each node of which stores a length. -/
inductive Measured where
  | leaf (token : Token)
  | node (kind : Kind) (length : Nat) (children : List Measured)
  deriving Repr, Inhabited

namespace Measured

/-- The length of a token, or the length that a node stores. -/
def length : Measured → Nat
  | .leaf token => token.byteLength
  | .node _ length _ => length

/-- The sum of the lengths of elements. -/
def lengthOf : List Measured → Nat
  | [] => 0
  | element :: elements => element.length + lengthOf elements

/-- A node of the given children. -/
def make (kind : Kind) (children : List Measured) : Measured :=
  .node kind (lengthOf children) children

/-- The kind of a node or of a token. -/
def kind : Measured → Kind
  | .leaf token => token.kind
  | .node kind _ _ => kind

/-- The children of a node; a token has none. -/
def children : Measured → List Measured
  | .leaf _ => []
  | .node _ _ children => children

/-- Whether an element is more than a token. -/
def isNode : Measured → Bool
  | .leaf _ => false
  | .node _ _ _ => true

mutual

/-- The tree without the lengths. -/
def tree : Measured → Tree Token
  | .leaf token => .leaf token
  | .node kind _ children => .node kind (trees children)

/-- `Measured.tree` for each element of a list. -/
def trees : List Measured → List (Tree Token)
  | [] => []
  | element :: elements => tree element :: trees elements

end

/-- The text of all tokens in order. -/
def text (element : Measured) : List Char := element.tree.text

/-- The text without the trivia in front of the first token and behind the last one, as the tree
that lacks this trivia has it. -/
def trimmedText (element : Measured) : List Char := element.tree.trimmedText

/-- The token at a path. -/
def tokenAt? (element : Measured) (path : List Nat) : Option Token :=
  (element.tree.elementAt? path).bind Tree.item?

/-- The first token of a node. -/
def firstToken? (element : Measured) : Option Token :=
  element.tree.firstLeafPath?.bind element.tokenAt?

/-- The last token of a node. -/
def lastToken? (element : Measured) : Option Token :=
  element.tree.lastLeafPath?.bind element.tokenAt?

/-- Number of bytes of the trivia in front of the first token. -/
def leadingLength (element : Measured) : Nat :=
  match element with
  | .leaf token => token.leading.byteLength
  | .node _ _ _ => (element.firstToken?.map fun token => token.leading.byteLength).getD 0

/-- Number of bytes of the trivia behind the last token. -/
def trailingLength (element : Measured) : Nat :=
  match element with
  | .leaf token => token.trailing.byteLength
  | .node _ _ _ => (element.lastToken?.map fun token => token.trailing.byteLength).getD 0

/-! ## Edits -/

/-- The node with other children, made anew; a token has no children to change. -/
def withChildren (element : Measured) (children : List Measured) : Measured :=
  match element with
  | .leaf token => .leaf token
  | .node kind _ _ => make kind children

/-- The node with the children from index `start` up to `stop` replaced by others. -/
def splice (element : Measured) (start stop : Nat) (replacement : List Measured) :
    Except EditError Measured :=
  if start ≤ stop ∧ stop ≤ element.children.length then
    .ok (element.withChildren
      (element.children.take start ++ replacement ++ element.children.drop stop))
  else
    .error .outOfRange

/-- The node with the child at an index replaced. -/
def replaceChild (element : Measured) (index : Nat) (replacement : Measured) :
    Except EditError Measured :=
  element.splice index (index + 1) [replacement]

/-- The tree with the element at a path replaced. -/
def replaceAt (element : Measured) :
    (path : List Nat) → (replacement : Measured) → Except EditError Measured
  | [], _ => .error .emptyPath
  | [index], replacement => element.replaceChild index replacement
  | index :: path, replacement =>
    match element.children[index]? with
    | none => .error .outOfRange
    | some (.leaf _) => .error .belowLeaf
    | some child => do
      let edited ← child.replaceAt path replacement
      element.replaceChild index edited

/-- The element at a path; the root itself is not an element. -/
def elementAt? (element : Measured) : (path : List Nat) → Option Measured
  | [] => none
  | [index] => element.children[index]?
  | index :: path => element.children[index]?.bind fun child => child.elementAt? path

end Measured

namespace Tree

mutual

/-- The tree with the length of each node, made from the leaves up. -/
def measured : Tree Token → Measured
  | .leaf token => .leaf token
  | .node kind children => .make kind (measuredAll children)

/-- `Tree.measured` for each tree of a list. -/
def measuredAll : List (Tree Token) → List Measured
  | [] => []
  | tree :: trees => measured tree :: measuredAll trees

end

end Tree

end ServiceAnnotator
