import ServiceAnnotator.Proofs.Tree.EdgePath
import ServiceAnnotator.Proofs.Tree.Mapping

/-!
# Changes at the edges of a tree

Changing the leaf at an edge is a replacement at its path. So every other element stays as it is,
and every node around the leaf keeps its kind and its place.
-/

namespace ServiceAnnotator.Tree

variable {α β : Type} {edge : Edge}

/-- The tree with its leaf at an edge changed; without leaves it stays as it is. -/
def mapEdge (edge : Edge) (f : α → α) (tree : Tree α) : Tree α :=
  match edge with
  | .first => tree.mapFirst f
  | .last => tree.mapLast f

/-- A list with the item at an edge changed. -/
def changeEdge (edge : Edge) (f : α → α) (items : List α) : List α :=
  match edge with
  | .first => items.modifyHead f
  | .last => changeLast f items

theorem leaves_mapEdge (edge : Edge) (f : α → α) (tree : Tree α) :
    (tree.mapEdge edge f).leaves = changeEdge edge f tree.leaves := by
  cases edge
  · exact leaves_mapFirst f tree
  · exact leaves_mapLast f tree

/-! ## A change as a replacement -/

theorem mapFirst?_eq (f : α → α) (tree : Tree α) :
    tree.mapFirst? f = if tree.leaves = [] then none else some (tree.mapFirst f) := by
  have changes := map_leaves_mapFirst? f tree
  rw [mapFirst]
  cases found : tree.mapFirst? f <;> split <;> simp_all

theorem mapLast?_eq (f : α → α) (tree : Tree α) :
    tree.mapLast? f = if tree.leaves = [] then none else some (tree.mapLast f) := by
  have changes := map_leaves_mapLast? f tree
  rw [mapLast]
  cases found : tree.mapLast? f <;> split <;> simp_all

theorem mapEdge_of_bare {tree : Tree α} (bare : tree.leaves = []) (f : α → α) :
    tree.mapEdge edge f = tree := by
  cases edge with
  | first => rw [mapEdge, mapFirst, mapFirst?_eq, if_pos bare, Option.getD_none]
  | last => rw [mapEdge, mapLast, mapLast?_eq, if_pos bare, Option.getD_none]

theorem mapFirstOf?_around (f : α → α) {front : List (Tree α)} (bare : leavesOf front = [])
    {child : Tree α} (some : child.leaves ≠ []) (behind : List (Tree α)) :
    mapFirstOf? f (front ++ child :: behind) = .some (front ++ child.mapFirst f :: behind) := by
  induction front with
  | nil =>
    rw [List.nil_append, mapFirstOf?, mapFirst?_eq, if_neg some]
    rfl
  | cons tree front ih =>
    rw [leavesOf_cons, List.append_eq_nil_iff] at bare
    rw [List.cons_append, mapFirstOf?, mapFirst?_eq, if_pos bare.1, ih bare.2]
    rfl

theorem mapLastOf?_around (f : α → α) (front : List (Tree α)) {child : Tree α}
    (some : child.leaves ≠ []) {behind : List (Tree α)} (bare : leavesOf behind = []) :
    mapLastOf? f (front ++ child :: behind) = .some (front ++ child.mapLast f :: behind) := by
  induction front with
  | nil =>
    have nothing : mapLastOf? f behind = none := by
      simpa [bare] using map_leavesOf_mapLastOf? f behind
    rw [List.nil_append, mapLastOf?, nothing, mapLast?_eq, if_neg some]
    rfl
  | cons tree front ih =>
    rw [List.cons_append, mapLastOf?, ih]
    rfl

/-- The leaf at an edge of a node lies in the child beside which there is no leaf. -/
theorem mapEdge_node (f : α → α) (kind : Kind) {front behind : List (Tree α)} {child : Tree α}
    (bare : leavesOf (edge.beside front behind) = []) (some : child.leaves ≠ []) :
    (node kind (front ++ child :: behind)).mapEdge edge f =
      node kind (front ++ child.mapEdge edge f :: behind) := by
  cases edge with
  | first =>
    have bareFront : leavesOf front = [] := bare
    rw [mapEdge, mapFirst, mapFirst?, mapFirstOf?_around f bareFront some]
    rfl
  | last =>
    have bareBehind : leavesOf behind = [] := bare
    rw [mapEdge, mapLast, mapLast?, mapLastOf?_around f front some bareBehind]
    rfl

/-- Changing the leaf at an edge puts the changed leaf at its path. -/
theorem mapEdge_eq_put {tree : Tree α} {path : List Nat} {item : α}
    (found : tree.edgePath? edge = some path) (leads : tree.subtree? path = some (leaf item))
    (f : α → α) : tree.mapEdge edge f = tree.put path (leaf (f item)) := by
  induction path generalizing tree with
  | nil =>
    obtain rfl : tree = leaf item := Option.some.inj leads
    cases edge <;> rfl
  | cons index path ih =>
    cases tree with
    | leaf item =>
      rw [edgePath?_leaf] at found
      cases found
    | node kind children =>
      rw [edgePath?_node] at found
      obtain ⟨front, child, behind, below, rfl, bare, inside, same⟩ := exists_of_edgePathFrom? found
      obtain ⟨rfl, rfl⟩ : index = front.length ∧ path = below := by simpa using same
      rw [subtree?_node_length] at leads
      have some : child.leaves ≠ [] := List.ne_nil_of_mem (mem_leaves_of_subtree? leads)
      have here : (front ++ child :: behind)[front.length]? = .some child := by simp
      rw [mapEdge_node f kind bare some, ih inside leads, put_cons here]
      simp

/-- A node with its leaf at an edge changed is a node of the same kind. -/
theorem exists_mapEdge_node (edge : Edge) (f : α → α) (kind : Kind) (children : List (Tree α)) :
    ∃ edits, (node kind children).mapEdge edge f = node kind edits := by
  cases edge with
  | first =>
    obtain ⟨edits, shape, -⟩ := exists_mapFirst_node f kind children
    exact ⟨edits, shape⟩
  | last =>
    rw [mapEdge, mapLast, mapLast?]
    cases mapLastOf? f children with
    | none => exact ⟨children, rfl⟩
    | some edits => exact ⟨edits, rfl⟩

/-- A leaf put in the place of a leaf is in no other element but those around it. -/
theorem subtree?_put_leaf {tree : Tree α} {path other : List Nat} {item : α}
    (leads : tree.subtree? path = some (leaf item)) (new : α) (notAround : ¬ other <+: path) :
    (tree.put path (leaf new)).subtree? other = tree.subtree? other := by
  by_cases isBelow : path <+: other
  · -- Nothing is below a leaf.
    obtain ⟨behind, rfl⟩ := isBelow
    cases behind with
    | nil => exact absurd (by simp) notAround
    | cons index behind =>
      rw [subtree?_append, subtree?_append, subtree?_put_self leads, leads]
      rfl
  · exact subtree?_put_of_not_prefix tree _ isBelow notAround

/-- A put that keeps the form of a part keeps the form of the tree. -/
theorem map_put {tree old new : Tree α} {path : List Nat} (found : tree.subtree? path = some old)
    {g : α → β} (same : new.map g = old.map g) : (tree.put path new).map g = tree.map g := by
  induction path generalizing tree with
  | nil =>
    obtain rfl : tree = old := Option.some.inj found
    exact same
  | cons index path ih =>
    obtain ⟨child, inside, below⟩ := subtree?_cons_eq_some_iff.mp found
    cases tree with
    | leaf item => simp [children] at inside
    | node kind children =>
      have here : children[index]? = some child := inside
      obtain ⟨fits, rfl⟩ := List.getElem?_eq_some_iff.mp here
      rw [put_cons here, map_node, map_node, mapAll_eq_map, mapAll_eq_map, List.map_set, ih below,
        ← List.map_set, List.set_getElem_self]

/-- Changing the leaf at an edge keeps the form of a tree. -/
theorem map_mapEdge (edge : Edge) (f : α → α) {g : α → β} (same : ∀ item, g (f item) = g item)
    (tree : Tree α) : (tree.mapEdge edge f).map g = tree.map g := by
  cases found : tree.edgePath? edge with
  | none => rw [mapEdge_of_bare ((edgePath?_eq_none_iff edge tree).mp found)]
  | some path =>
    obtain ⟨item, -, leads⟩ := subtree?_of_edgePath? found
    rw [mapEdge_eq_put found leads]
    exact map_put leads (by rw [map_leaf, map_leaf, same])

end ServiceAnnotator.Tree
