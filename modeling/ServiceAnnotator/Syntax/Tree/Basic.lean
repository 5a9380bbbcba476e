import ServiceAnnotator.Syntax.Token

/-!
# Syntax trees

A tree has leaves of any type; with tokens as leaves it is the tree of a source text. Trees hold no
positions, so that an edit leaves every other part as it is. The text of a tree is the text of its
leaves in order.
-/

namespace ServiceAnnotator

/-- A leaf, or a node with a kind and children. -/
inductive Tree (α : Type) where
  | leaf (item : α)
  | node (kind : Kind) (children : List (Tree α))
  deriving Repr, Inhabited

namespace Tree

variable {α β : Type}

mutual

/-- Structural equality is decided child by child. -/
def decEq [DecidableEq α] : (left right : Tree α) → Decidable (left = right)
  | .leaf a, .leaf b =>
    if equal : a = b then .isTrue (by rw [equal]) else .isFalse (by simp [equal])
  | .node k cs, .node l ds =>
    if sameKind : k = l then
      match decEqAll cs ds with
      | .isTrue equal => .isTrue (by rw [sameKind, equal])
      | .isFalse differ => .isFalse (by simp [differ])
    else .isFalse (by simp [sameKind])
  | .leaf _, .node _ _ => .isFalse (by simp)
  | .node _ _, .leaf _ => .isFalse (by simp)

/-- Structural equality of lists of trees. -/
def decEqAll [DecidableEq α] : (left right : List (Tree α)) → Decidable (left = right)
  | [], [] => .isTrue rfl
  | c :: cs, d :: ds =>
    match decEq c d with
    | .isTrue same =>
      match decEqAll cs ds with
      | .isTrue equal => .isTrue (by rw [same, equal])
      | .isFalse differ => .isFalse (by simp [differ])
    | .isFalse differ => .isFalse (by simp [differ])
  | [], _ :: _ => .isFalse (by simp)
  | _ :: _, [] => .isFalse (by simp)

end

instance [DecidableEq α] : DecidableEq (Tree α) := decEq

/-- The kind of a node, or of the item in a leaf. -/
def kind [Kinded α] : Tree α → Kind
  | .leaf item => Kinded.kind item
  | .node kind _ => kind

/-- The children of a node; a leaf has none. -/
def children : Tree α → List (Tree α)
  | .leaf _ => []
  | .node _ children => children

/-- Whether a tree is more than a leaf. -/
def isNode : Tree α → Bool
  | .leaf _ => false
  | .node _ _ => true

/-- The item of a leaf. -/
def item? : Tree α → Option α
  | .leaf item => some item
  | .node _ _ => none

mutual

/-- The items of all leaves in order. -/
def leaves : Tree α → List α
  | .leaf item => [item]
  | .node _ children => leavesOf children

/-- The items of all leaves of a list of trees in order. -/
def leavesOf : List (Tree α) → List α
  | [] => []
  | tree :: trees => leaves tree ++ leavesOf trees

end

mutual

/-- The tree with a function applied to the item of each leaf. -/
def map (f : α → β) : Tree α → Tree β
  | .leaf item => .leaf (f item)
  | .node kind children => .node kind (mapAll f children)

/-- `Tree.map` on each tree of a list. -/
def mapAll (f : α → β) : List (Tree α) → List (Tree β)
  | [] => []
  | tree :: trees => map f tree :: mapAll f trees

end

/-- The tree without anything but kinds. -/
def outline [Kinded α] (tree : Tree α) : Tree Kind := tree.map Kinded.kind

/-- The child nodes. -/
def childNodes (tree : Tree α) : List (Tree α) := tree.children.filter isNode

/-- The child nodes whose kind satisfies a condition. -/
def nodesWhere [Kinded α] (p : Kind → Bool) (tree : Tree α) : List (Tree α) :=
  tree.childNodes.filter fun child => p child.kind

/-- The first child node whose kind satisfies a condition. -/
def nodeWhere? [Kinded α] (p : Kind → Bool) (tree : Tree α) : Option (Tree α) :=
  tree.childNodes.find? fun child => p child.kind

/-- The first child node of a kind. -/
def node? [Kinded α] (kind : Kind) (tree : Tree α) : Option (Tree α) :=
  tree.nodeWhere? (· == kind)

/-- The items of the children that are leaves. -/
def items (tree : Tree α) : List α := tree.children.filterMap item?

/-- The first of the tree's own leaves that has a kind. -/
def itemOfKind? [Kinded α] (kind : Kind) (tree : Tree α) : Option α :=
  tree.items.find? fun item => Kinded.kind item == kind

/-- The text of a tree. -/
def text (tree : Tree Token) : List Char := tree.leaves.flatMap Token.text

/-- Number of bytes of the text of a tree. -/
def byteLength (tree : Tree Token) : Nat := Text.byteLength tree.text

mutual

/-- The tree with the position of each token, when it starts at a position; and where it ends. -/
def place (start : Nat) : Tree Token → Tree PlacedToken × Nat
  | .leaf token => (.leaf ⟨start, token⟩, start + token.byteLength)
  | .node kind children =>
    let (placed, stop) := placeAll start children
    (.node kind placed, stop)

/-- `Tree.place` on trees that follow each other. -/
def placeAll (start : Nat) : List (Tree Token) → List (Tree PlacedToken) × Nat
  | [] => ([], start)
  | tree :: trees =>
    let (first, next) := place start tree
    let (rest, stop) := placeAll next trees
    (first :: rest, stop)

end

/-- The tree of a whole document with the position of each token. -/
def placed (tree : Tree Token) : Tree PlacedToken := (place 0 tree).1

/-- The text of a tree with positions. -/
def placedText (tree : Tree PlacedToken) : List Char :=
  tree.leaves.flatMap fun placed => placed.token.text

/-- Where the significant text of a tree with positions lies: from its first token without leading
trivia to its last token without trailing trivia. A tree without tokens lies nowhere. -/
def significantSpan? (tree : Tree PlacedToken) : Option Span := do
  let first ← tree.leaves.head?
  let last ← tree.leaves.getLast?
  pure ⟨first.lexemeSpan.start, last.lexemeSpan.stop⟩

end Tree

end ServiceAnnotator
