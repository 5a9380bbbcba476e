import Mathlib.Data.List.Lex
import ServiceAnnotator.Proofs.Tree.Edges
import ServiceAnnotator.Syntax.Tree.EdgeSearch

/-!
# The path to an edge leaf

The path to the first or the last leaf of a tree goes through the child beside which there is no
leaf. In pre-order the elements of a tree stand as their paths do lexicographically, so this path is
the least or the greatest of all paths to leaves.
-/

namespace ServiceAnnotator

/-! ## Paths by recursion -/

namespace Tree

variable {α : Type}

/-- The path to the leaf at an edge. -/
def edgePath? (edge : Edge) (tree : Tree α) : Option (List Nat) :=
  match edge with
  | .first => tree.firstLeafPath?
  | .last => tree.lastLeafPath?

/-- The path to the leaf at an edge of a list of trees, of which the first has the given index. -/
def edgePathFrom? (edge : Edge) (index : Nat) (trees : List (Tree α)) : Option (List Nat) :=
  match edge with
  | .first => firstLeafPathFrom? index trees
  | .last => lastLeafPathFrom? index trees

@[simp] theorem edgePath?_leaf (edge : Edge) (item : α) : (leaf item).edgePath? edge = some [] := by
  cases edge <;> rfl

@[simp] theorem edgePath?_node (edge : Edge) (kind : Kind) (children : List (Tree α)) :
    (node kind children).edgePath? edge = edgePathFrom? edge 0 children := by
  cases edge
  · exact firstLeafPath?.eq_2 kind children
  · exact lastLeafPath?.eq_2 kind children

@[simp] theorem edgePathFrom?_nil (edge : Edge) (index : Nat) :
    edgePathFrom? edge index ([] : List (Tree α)) = none := by
  cases edge <;> rfl

/-- Of the trees in a list the one next to the edge comes first. -/
theorem edgePathFrom?_cons (edge : Edge) (index : Nat) (tree : Tree α) (trees : List (Tree α)) :
    edgePathFrom? edge index (tree :: trees) =
      let here := (tree.edgePath? edge).map (index :: ·)
      let behind := edgePathFrom? edge (index + 1) trees
      match edge with
      | .first => here.or behind
      | .last => behind.or here := by
  cases edge with
  | first =>
    rw [edgePathFrom?, firstLeafPathFrom?, edgePath?, edgePathFrom?]
    cases tree.firstLeafPath? <;> rfl
  | last =>
    rw [edgePathFrom?, lastLeafPathFrom?, edgePath?, edgePathFrom?]
    cases lastLeafPathFrom? (index + 1) trees <;> rfl

/-- The search for the leaf at an edge fails only where there is none. -/
theorem edgePath?_eq_none_iff (edge : Edge) (tree : Tree α) :
    tree.edgePath? edge = none ↔ tree.leaves = [] := by
  cases edge
  · exact firstLeafPath?_eq_none_iff tree
  · exact lastLeafPath?_eq_none_iff tree

end Tree

/-! ## The order of paths -/

namespace Edge

/-- What stands beside a child of a node on the side of an edge. -/
def beside {α : Type} (edge : Edge) (front behind : List α) : List α :=
  match edge with
  | .first => front
  | .last => behind

/-- Whether one path comes before another one in pre-order, counted from an edge. In pre-order a
node stands in front of all that is below it, and children stand in the order of their indices. -/
def Before (edge : Edge) (path other : List Nat) : Prop :=
  match edge with
  | .first => List.Lex (· < ·) path other
  | .last => List.Lex (· < ·) other path

theorem Before.asymm {edge : Edge} {path other : List Nat} (before : edge.Before path other) :
    ¬ edge.Before other path := by
  cases edge with
  | first => exact Std.Asymm.asymm (r := List.Lex (· < ·)) path other before
  | last => exact Std.Asymm.asymm (r := List.Lex (· < ·)) other path before

theorem Before.cons {edge : Edge} {path other : List Nat} (before : edge.Before path other)
    (index : Nat) : edge.Before (index :: path) (index :: other) := by
  cases edge with
  | first => exact List.Lex.cons before
  | last => exact List.Lex.cons before

end Edge

namespace Tree

variable {α : Type} {edge : Edge}

/-- The leaf at an edge. -/
def edgeLeaf? (edge : Edge) (tree : Tree α) : Option α :=
  match edge with
  | .first => tree.firstLeaf?
  | .last => tree.lastLeaf?

theorem subtree?_edgePath? (edge : Edge) (tree : Tree α) :
    (tree.edgePath? edge).bind tree.subtree? = (tree.edgeLeaf? edge).map leaf := by
  cases edge
  · exact subtree?_firstLeafPath? tree
  · exact subtree?_lastLeafPath? tree

/-- The path to the leaf at an edge leads to it. -/
theorem subtree?_of_edgePath? {tree : Tree α} {path : List Nat}
    (found : tree.edgePath? edge = some path) :
    ∃ item, tree.edgeLeaf? edge = some item ∧ tree.subtree? path = some (leaf item) := by
  have leads := subtree?_edgePath? edge tree
  rw [found, Option.bind_some] at leads
  cases last : tree.edgeLeaf? edge with
  | none =>
    have none : tree.leaves = [] := by
      cases edge
      · exact List.head?_eq_none_iff.mp last
      · exact List.getLast?_eq_none_iff.mp last
    rw [(edgePath?_eq_none_iff edge tree).mpr none] at found
    cases found
  | some item =>
    rw [last] at leads
    exact ⟨item, rfl, leads⟩

/-- What a path leads to is a leaf of the tree. -/
theorem mem_leaves_of_subtree? {tree : Tree α} {path : List Nat} {item : α}
    (leads : tree.subtree? path = some (leaf item)) : item ∈ tree.leaves := by
  induction path generalizing tree with
  | nil =>
    obtain rfl : tree = leaf item := Option.some.inj leads
    simp
  | cons index path ih =>
    obtain ⟨child, inside, below⟩ := subtree?_cons_eq_some_iff.mp leads
    exact mem_leaves_of_mem_children (List.mem_of_getElem? inside) (ih below)

/-- The path to the leaf at an edge goes through the child beside which there is no leaf. -/
theorem exists_of_edgePathFrom? {index : Nat} {trees : List (Tree α)} {path : List Nat}
    (found : edgePathFrom? edge index trees = some path) :
    ∃ front child behind below, trees = front ++ child :: behind ∧
      leavesOf (edge.beside front behind) = [] ∧ child.edgePath? edge = some below ∧
      path = (index + front.length) :: below := by
  induction trees generalizing index with
  | nil => simp at found
  | cons tree trees ih =>
    rw [edgePathFrom?_cons] at found
    cases edge with
    | first =>
      rcases Option.or_eq_some_iff.mp found with inside | ⟨nothing, inside⟩
      · obtain ⟨below, leads, rfl⟩ := Option.map_eq_some_iff.mp inside
        exact ⟨[], tree, trees, below, rfl, leavesOf_nil, leads, rfl⟩
      · have bare := (edgePath?_eq_none_iff _ tree).mp (Option.map_eq_none_iff.mp nothing)
        obtain ⟨front, child, behind, below, rfl, outside, leads, rfl⟩ := ih inside
        refine ⟨tree :: front, child, behind, below, rfl, ?_, leads, ?_⟩
        · simpa [Edge.beside, bare] using outside
        · rw [List.length_cons, Nat.add_right_comm, Nat.add_assoc]
    | last =>
      rcases Option.or_eq_some_iff.mp found with inside | ⟨nothing, inside⟩
      · obtain ⟨front, child, behind, below, rfl, outside, leads, rfl⟩ := ih inside
        refine ⟨tree :: front, child, behind, below, rfl, outside, leads, ?_⟩
        rw [List.length_cons, Nat.add_right_comm, Nat.add_assoc]
      · obtain ⟨below, leads, rfl⟩ := Option.map_eq_some_iff.mp inside
        have bare := (lastLeafPathFrom?_eq_none_iff _ trees).mp nothing
        exact ⟨[], tree, trees, below, rfl, bare, leads, rfl⟩

/-- A child of a node stands in front of a given one, is that one, or stands behind it. -/
theorem place_of_getElem? {front behind : List (Tree α)} {child other : Tree α} {index : Nat}
    (inside : (front ++ child :: behind)[index]? = some other) :
    index < front.length ∧ other ∈ front ∨ index = front.length ∧ other = child ∨
      front.length < index ∧ other ∈ behind := by
  rcases Nat.lt_trichotomy index front.length with left | rfl | right
  · rw [List.getElem?_append_left left] at inside
    exact .inl ⟨left, List.mem_of_getElem? inside⟩
  · exact .inr (.inl ⟨rfl, by simpa using inside.symm⟩)
  · obtain ⟨distance, rfl⟩ : ∃ distance, index = front.length + (distance + 1) :=
      ⟨index - front.length - 1, by omega⟩
    rw [List.getElem?_append_right (Nat.le_add_right _ _), Nat.add_sub_cancel_left,
      List.getElem?_cons_succ] at inside
    exact .inr (.inr ⟨right, List.mem_of_getElem? inside⟩)

/-- The path to the leaf at an edge comes before the path to any other leaf. -/
theorem before_of_edgePath? {tree : Tree α} {path other : List Nat} {item : α}
    (found : tree.edgePath? edge = some path) (leads : tree.subtree? other = some (leaf item))
    (different : other ≠ path) : edge.Before path other := by
  induction path generalizing tree other with
  | nil =>
    cases tree with
    | leaf item =>
      cases other with
      | nil => exact absurd rfl different
      | cons index other => simp [subtree?, children] at leads
    | node kind children =>
      rw [edgePath?_node] at found
      obtain ⟨_, _, _, _, -, -, -, same⟩ := exists_of_edgePathFrom? found
      cases same
  | cons index path ih =>
    cases tree with
    | leaf item =>
      rw [edgePath?_leaf] at found
      cases found
    | node kind children =>
      rw [edgePath?_node] at found
      obtain ⟨front, child, behind, below, rfl, bare, inside, same⟩ := exists_of_edgePathFrom? found
      obtain ⟨rfl, rfl⟩ : index = front.length ∧ path = below := by simpa using same
      cases other with
      | nil => cases leads
      | cons index other =>
        obtain ⟨child', isChild, further⟩ := subtree?_cons_eq_some_iff.mp leads
        have isLeaf := mem_leaves_of_subtree? further
        rcases place_of_getElem? isChild with ⟨left, isFront⟩ | ⟨rfl, rfl⟩ | ⟨right, isBehind⟩
        · cases edge with
          | first => exact absurd bare (List.ne_nil_of_mem (mem_leavesOf isFront isLeaf))
          | last => exact List.Lex.rel left
        · have deeper := ih inside further fun same => different (congrArg (front.length :: ·) same)
          exact deeper.cons front.length
        · cases edge with
          | first => exact List.Lex.rel right
          | last => exact absurd bare (List.ne_nil_of_mem (mem_leavesOf isBehind isLeaf))

end Tree

end ServiceAnnotator
