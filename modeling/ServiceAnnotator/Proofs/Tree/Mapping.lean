import ServiceAnnotator.Proofs.Tree.Leaves

/-!
# Trees with other leaves

A function on leaves keeps the form of a tree.
-/

namespace ServiceAnnotator.Tree

variable {α β γ : Type} (f : α → β)

@[simp] theorem map_leaf (item : α) : (leaf item).map f = leaf (f item) := by
  rw [map]

@[simp] theorem map_node (kind : Kind) (children : List (Tree α)) :
    (node kind children).map f = node kind (mapAll f children) := by
  rw [map]

@[simp] theorem mapAll_nil : mapAll f [] = [] := by
  rw [mapAll]

@[simp] theorem mapAll_cons (tree : Tree α) (trees : List (Tree α)) :
    mapAll f (tree :: trees) = tree.map f :: mapAll f trees := by
  rw [mapAll]

@[simp] theorem mapAll_append (left right : List (Tree α)) :
    mapAll f (left ++ right) = mapAll f left ++ mapAll f right := by
  induction left with
  | nil => simp
  | cons tree trees ih => simp [ih]

@[simp] theorem mapAll_map_leaf (items : List α) :
    mapAll f (items.map Tree.leaf) = (items.map f).map Tree.leaf := by
  induction items with
  | nil => simp
  | cons item items ih => simp [ih]

theorem mapAll_eq_map (trees : List (Tree α)) : mapAll f trees = trees.map (map f) := by
  induction trees with
  | nil => simp
  | cons tree trees ih => simp [ih]

@[simp] theorem isNode_map (tree : Tree α) : (tree.map f).isNode = tree.isNode := by
  cases tree <;> simp [isNode]

theorem kind_map [Kinded α] [Kinded β] {f : α → β}
    (same : ∀ item, Kinded.kind (f item) = Kinded.kind item) (tree : Tree α) :
    (tree.map f).kind = tree.kind := by
  cases tree <;> simp [kind, same]

theorem isEmpty_mapAll (trees : List (Tree α)) : (mapAll f trees).isEmpty = trees.isEmpty := by
  cases trees <;> simp

mutual

/-- The leaves of a tree with other leaves are the other leaves. -/
@[simp] theorem leaves_map (tree : Tree α) : (tree.map f).leaves = tree.leaves.map f := by
  cases tree with
  | leaf item => simp
  | node kind children => simp [leavesOf_mapAll children]

@[simp] theorem leavesOf_mapAll (trees : List (Tree α)) :
    leavesOf (mapAll f trees) = (leavesOf trees).map f := by
  cases trees with
  | nil => simp
  | cons tree trees => simp [leaves_map tree, leavesOf_mapAll trees]

end

mutual

/-- Of two functions on leaves one behind the other the second gets what the first one gives. -/
theorem map_map (g : β → γ) (tree : Tree α) :
    (tree.map f).map g = tree.map fun item => g (f item) := by
  cases tree with
  | leaf item => simp
  | node kind children => simp [mapAll_mapAll g children]

theorem mapAll_mapAll (g : β → γ) (trees : List (Tree α)) :
    mapAll g (mapAll f trees) = mapAll (fun item => g (f item)) trees := by
  cases trees with
  | nil => simp
  | cons tree trees => simp [map_map g tree, mapAll_mapAll g trees]

end

end ServiceAnnotator.Tree
