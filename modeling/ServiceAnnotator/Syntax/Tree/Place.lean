import ServiceAnnotator.Syntax.Tree.Edges
import ServiceAnnotator.Syntax.Tree.Edit

/-!
# Places in a tree

A place is an element of a tree together with its position in the text and the way back to the root.
The way is all that is needed to rebuild the tree around another element.
-/

namespace ServiceAnnotator

/-- A step down the tree: the node that was left, where it starts, and the index of the child. -/
structure Step where
  parent : Tree Token
  start : Nat
  index : Nat
  deriving Repr

/-- An element, the position of its first byte, and the steps that lead to it, the last one
first. -/
structure Place where
  element : Tree Token
  start : Nat
  steps : List Step
  deriving Repr

namespace Place

/-- The root of a tree. -/
def root (tree : Tree Token) : Place := ⟨tree, 0, []⟩

/-- The children of an element, from an index on, as places. -/
def childrenFrom (place : Place) (index start : Nat) : List (Tree Token) → List Place
  | [] => []
  | child :: rest =>
    ⟨child, start, ⟨place.element, place.start, index⟩ :: place.steps⟩ ::
      childrenFrom place (index + 1) (start + child.byteLength) rest

/-- The children of an element. -/
def children (place : Place) : List Place :=
  place.childrenFrom 0 place.start place.element.children

/-- The place at the end of a path that starts at this place. -/
def descend? (place : Place) : List Nat → Option Place
  | [] => some place
  | index :: path => place.children[index]?.bind (descend? · path)

/-- The place around this one. -/
def parent? (place : Place) : Option Place :=
  match place.steps with
  | [] => none
  | step :: steps => some ⟨step.parent, step.start, steps⟩

/-- The nodes from this place up to the root. -/
def ancestors (place : Place) : List (Tree Token) :=
  place.element :: place.steps.map Step.parent

/-- The path that leads to this place from the root. -/
def path (place : Place) : List Nat := (place.steps.map Step.index).reverse

/-- The position among the children around it; the root counts as the first. -/
def index (place : Place) : Nat := (place.steps.map Step.index).headD 0

/-- The span of the element, trivia included. -/
def span (place : Place) : Span := .ofLength place.start place.element.byteLength

/-- The span without the leading trivia of the first token and the trailing trivia of the last. -/
def trimmedSpan (place : Place) : Span :=
  let leading := (place.element.firstLeaf?.map fun token => token.leading.byteLength).getD 0
  let trailing := (place.element.lastLeaf?.map fun token => token.trailing.byteLength).getD 0
  ⟨place.span.start + leading, place.span.stop - trailing⟩

/-- The tokens of the element with their positions. -/
def tokens (place : Place) : List PlacedToken := (Tree.place place.start place.element).1.leaves

/-- The root with another element in this place. -/
def replaceWith (place : Place) (element : Tree Token) : Tree Token :=
  place.steps.foldl
    (fun inner step => step.parent.withChildren (step.parent.children.set step.index inner))
    element

end Place

end ServiceAnnotator
