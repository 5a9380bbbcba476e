import ServiceAnnotator.Syntax.Tree.Basic

/-!
# First and last leaves

Trivia at the two ends of a tree belongs to its first and its last token, which may lie at any depth
and behind nodes without tokens. Trimming drops that trivia and keeps the shape of the tree.
-/

namespace ServiceAnnotator.Tree

variable {α : Type}

mutual

/-- The path to the first leaf. A node without leaves has none. -/
def firstLeafPath? : Tree α → Option (List Nat)
  | .leaf _ => some []
  | .node _ children => firstLeafPathFrom? 0 children

/-- The path to the first leaf of a list of trees, of which the first has the given index. -/
def firstLeafPathFrom? (index : Nat) : List (Tree α) → Option (List Nat)
  | [] => none
  | tree :: trees =>
    match firstLeafPath? tree with
    | some path => some (index :: path)
    | none => firstLeafPathFrom? (index + 1) trees

end

mutual

/-- The path to the last leaf. A node without leaves has none. -/
def lastLeafPath? : Tree α → Option (List Nat)
  | .leaf _ => some []
  | .node _ children => lastLeafPathFrom? 0 children

/-- The path to the last leaf of a list of trees, of which the first has the given index. -/
def lastLeafPathFrom? (index : Nat) : List (Tree α) → Option (List Nat)
  | [] => none
  | tree :: trees =>
    match lastLeafPathFrom? (index + 1) trees with
    | some path => some path
    | none => (lastLeafPath? tree).map (index :: ·)

end

/-- The first leaf. -/
def firstLeaf? (tree : Tree α) : Option α := tree.leaves.head?

/-- The last leaf. -/
def lastLeaf? (tree : Tree α) : Option α := tree.leaves.getLast?

mutual

/-- The tree with its first leaf changed, if it has one. -/
def mapFirst? (f : α → α) : Tree α → Option (Tree α)
  | .leaf item => some (.leaf (f item))
  | .node kind children => (mapFirstOf? f children).map (.node kind ·)

/-- A list of trees with the first leaf of all changed, if there is one. -/
def mapFirstOf? (f : α → α) : List (Tree α) → Option (List (Tree α))
  | [] => none
  | tree :: trees =>
    match mapFirst? f tree with
    | some changed => some (changed :: trees)
    | none => (mapFirstOf? f trees).map (tree :: ·)

end

mutual

/-- The tree with its last leaf changed, if it has one. -/
def mapLast? (f : α → α) : Tree α → Option (Tree α)
  | .leaf item => some (.leaf (f item))
  | .node kind children => (mapLastOf? f children).map (.node kind ·)

/-- A list of trees with the last leaf of all changed, if there is one. -/
def mapLastOf? (f : α → α) : List (Tree α) → Option (List (Tree α))
  | [] => none
  | tree :: trees =>
    match mapLastOf? f trees with
    | some changed => some (tree :: changed)
    | none => (mapLast? f tree).map (· :: trees)

end

/-- The tree with its first leaf changed; without leaves it stays as it is. -/
def mapFirst (f : α → α) (tree : Tree α) : Tree α := (tree.mapFirst? f).getD tree

/-- The tree with its last leaf changed; without leaves it stays as it is. -/
def mapLast (f : α → α) (tree : Tree α) : Tree α := (tree.mapLast? f).getD tree

/-- The tree without the trivia in front of its first token and behind its last token. -/
def trimmed (tree : Tree Token) : Tree Token :=
  (tree.mapFirst Token.withoutLeading).mapLast Token.withoutTrailing

/-- The text of a tree without the trivia at both ends. -/
def trimmedText (tree : Tree Token) : List Char := tree.trimmed.text

end ServiceAnnotator.Tree
