import ServiceAnnotator.Syntax.Tree.Basic

/-!
# Edits of a tree

An edit builds a new tree and leaves every part that it does not touch as it is. An element of a
tree is named by its path, the list of child indices that lead to it from the root, tokens counted.
-/

namespace ServiceAnnotator

/-- Reasons for which an element cannot be edited. -/
inductive EditError where
  /-- The root itself cannot be replaced within itself. -/
  | emptyPath
  /-- An index or a range of indices lies outside the children. -/
  | outOfRange
  /-- The path goes on below a leaf. -/
  | belowLeaf
  deriving DecidableEq, Repr

namespace EditError

/-- The reason in words; an index out of range has none of its own. -/
def message? : EditError → Option String
  | .emptyPath => some "`replace_at` needs a non-empty path"
  | .outOfRange => none
  | .belowLeaf => some "path continues below token"

end EditError

namespace Tree

variable {α : Type}

/-- The node with other children; a leaf has no children to change. -/
def withChildren (tree : Tree α) (children : List (Tree α)) : Tree α :=
  match tree with
  | .leaf item => .leaf item
  | .node kind _ => .node kind children

/-- The node with the children from index `start` up to `stop` replaced by others. -/
def splice (tree : Tree α) (start stop : Nat) (replacement : List (Tree α)) :
    Except EditError (Tree α) :=
  if start ≤ stop ∧ stop ≤ tree.children.length then
    .ok (tree.withChildren (tree.children.take start ++ replacement ++ tree.children.drop stop))
  else
    .error .outOfRange

/-- The node with the child at an index replaced. -/
def replaceChild (tree : Tree α) (index : Nat) (element : Tree α) : Except EditError (Tree α) :=
  tree.splice index (index + 1) [element]

/-- The node with an element inserted in front of the child at an index, or behind the last
child. -/
def insertChild (tree : Tree α) (index : Nat) (element : Tree α) : Except EditError (Tree α) :=
  tree.splice index index [element]

/-- The tree with the element at a path replaced. -/
def replaceAt (tree : Tree α) : (path : List Nat) → (element : Tree α) → Except EditError (Tree α)
  | [], _ => .error .emptyPath
  | [index], element => tree.replaceChild index element
  | index :: path, element =>
    match tree.children[index]? with
    | none => .error .outOfRange
    | some (.leaf _) => .error .belowLeaf
    | some child => do
      let edited ← child.replaceAt path element
      tree.replaceChild index edited

/-- The element at a path; the root itself is not an element. -/
def elementAt? (tree : Tree α) : (path : List Nat) → Option (Tree α)
  | [] => none
  | [index] => tree.children[index]?
  | index :: path => tree.children[index]?.bind fun child => child.elementAt? path

/-- The node with an element behind its children. -/
def append (tree element : Tree α) : Tree α := tree.withChildren (tree.children ++ [element])

/-- The node with an element in front of its children. -/
def prepend (tree element : Tree α) : Tree α := tree.withChildren (element :: tree.children)

end Tree

end ServiceAnnotator
