import ServiceAnnotator.Syntax.Tree.Edges

/-!
# Leaves under edits of a tree

The text of a tree is the text of its leaves, so an edit of a tree is understood by what it does to
the leaves. Changing the first or the last leaf of a tree changes the first or the last of its
leaves and nothing else, at whatever depth that leaf lies.
-/

namespace ServiceAnnotator.Tree

variable {α : Type}

@[simp] theorem leaves_leaf (item : α) : (leaf item).leaves = [item] := by
  rw [leaves]

@[simp] theorem leaves_node (kind : Kind) (children : List (Tree α)) :
    (node kind children).leaves = leavesOf children := by
  rw [leaves]

@[simp] theorem leavesOf_nil : leavesOf ([] : List (Tree α)) = [] := by
  rw [leavesOf]

@[simp] theorem leavesOf_cons (tree : Tree α) (trees : List (Tree α)) :
    leavesOf (tree :: trees) = tree.leaves ++ leavesOf trees := by
  rw [leavesOf]

@[simp] theorem leavesOf_append (left right : List (Tree α)) :
    leavesOf (left ++ right) = leavesOf left ++ leavesOf right := by
  induction left with
  | nil => rfl
  | cons tree trees ih => simp [ih]

@[simp] theorem leavesOf_map_leaf (items : List α) :
    leavesOf (items.map Tree.leaf) = items := by
  induction items with
  | nil => rfl
  | cons item items ih => simp [ih]

theorem mem_leavesOf {tree : Tree α} {trees : List (Tree α)} (inside : tree ∈ trees) {item : α}
    (isLeaf : item ∈ tree.leaves) : item ∈ leavesOf trees := by
  obtain ⟨front, behind, rfl⟩ := List.append_of_mem inside
  rw [leavesOf_append, leavesOf_cons]
  exact List.mem_append_right _ (List.mem_append_left _ isLeaf)

theorem mem_leaves_of_mem_children {tree child : Tree α} {item : α}
    (isChild : child ∈ tree.children) (isLeaf : item ∈ child.leaves) : item ∈ tree.leaves := by
  cases tree with
  | leaf item => cases isChild
  | node kind children =>
    rw [leaves_node]
    exact mem_leavesOf isChild isLeaf

/-! ## The first leaf -/

mutual

/-- Changing the first leaf fails only where there is none. -/
theorem map_leaves_mapFirst? (f : α → α) (tree : Tree α) :
    (tree.mapFirst? f).map leaves =
      if tree.leaves = [] then none else some (tree.leaves.modifyHead f) := by
  cases tree with
  | leaf item => simp [mapFirst?]
  | node kind children =>
    rw [mapFirst?, leaves_node, ← map_leavesOf_mapFirstOf? f children, Option.map_map]
    congr 1

/-- Changing the first leaf of a list of trees fails only where there is none. -/
theorem map_leavesOf_mapFirstOf? (f : α → α) (trees : List (Tree α)) :
    (mapFirstOf? f trees).map leavesOf =
      if leavesOf trees = [] then none else some ((leavesOf trees).modifyHead f) := by
  cases trees with
  | nil => simp [mapFirstOf?]
  | cons tree trees =>
    have first := map_leaves_mapFirst? f tree
    have behind := map_leavesOf_mapFirstOf? f trees
    rw [mapFirstOf?]
    cases leavesEq : tree.leaves with
    | nil =>
      simp only [leavesEq, ↓reduceIte, Option.map_eq_none_iff] at first
      rw [first, leavesOf_cons, leavesEq, List.nil_append, ← behind, Option.map_map]
      congr 1
      funext changed
      simp [leavesEq]
    | cons item items =>
      simp only [leavesEq, List.cons_ne_nil, ↓reduceIte, Option.map_eq_some_iff] at first
      obtain ⟨changed, found, changedLeaves⟩ := first
      rw [found]
      simp [leavesEq, changedLeaves]

end

/-- Where a change fails for want of leaves the tree stays as it is. -/
theorem leaves_getD {changed? : Option (Tree α)} {tree : Tree α} {items : List α}
    (changes : changed?.map leaves = if tree.leaves = [] then none else some items)
    (nothing : tree.leaves = [] → items = []) : (changed?.getD tree).leaves = items := by
  by_cases empty : tree.leaves = []
  · rw [if_pos empty, Option.map_eq_none_iff] at changes
    rw [changes, Option.getD_none, empty, nothing empty]
  · rw [if_neg empty, Option.map_eq_some_iff] at changes
    obtain ⟨changed, rfl, leavesEq⟩ := changes
    exact leavesEq

/-- Changing the first leaf changes the first of all leaves. -/
@[simp] theorem leaves_mapFirst (f : α → α) (tree : Tree α) :
    (tree.mapFirst f).leaves = tree.leaves.modifyHead f :=
  leaves_getD (map_leaves_mapFirst? f tree) fun empty => by rw [empty, List.modifyHead_nil]

/-- A node with its first leaf changed is a node of the same kind. -/
theorem exists_mapFirst_node (f : α → α) (kind : Kind) (children : List (Tree α)) :
    ∃ edits, (node kind children).mapFirst f = node kind edits ∧
      leavesOf edits = (leavesOf children).modifyHead f := by
  have changes := leaves_mapFirst f (node kind children)
  obtain ⟨edits, shape⟩ : ∃ edits, (node kind children).mapFirst f = node kind edits := by
    rw [mapFirst, mapFirst?]
    cases mapFirstOf? f children with
    | none => exact ⟨children, rfl⟩
    | some edits => exact ⟨edits, rfl⟩
  rw [shape] at changes
  exact ⟨edits, shape, by simpa using changes⟩

/-! ## The last leaf -/

/-- A list with a function applied to its last item. -/
def changeLast (f : α → α) (items : List α) : List α := (items.reverse.modifyHead f).reverse

@[simp] theorem changeLast_nil (f : α → α) : changeLast f [] = [] := rfl

@[simp] theorem changeLast_concat (f : α → α) (items : List α) (last : α) :
    changeLast f (items ++ [last]) = items ++ [f last] := by
  simp [changeLast]

theorem changeLast_append (f : α → α) (left : List α) {right : List α} (some : right ≠ []) :
    changeLast f (left ++ right) = left ++ changeLast f right := by
  obtain ⟨items, last, rfl⟩ : ∃ items last, right = items ++ [last] :=
    ⟨right.dropLast, right.getLast some, (List.dropLast_concat_getLast some).symm⟩
  rw [← List.append_assoc, changeLast_concat, changeLast_concat, List.append_assoc]

theorem getElem?_changeLast (f : α → α) (items : List α) (index : Nat) :
    (changeLast f items)[index]? =
      if index + 1 = items.length then items[index]?.map f else items[index]? := by
  rcases List.eq_nil_or_concat items with rfl | ⟨front, last, rfl⟩
  · simp
  · rw [List.concat_eq_append, changeLast_concat, List.length_append, List.length_singleton]
    by_cases atEnd : index = front.length
    · subst atEnd
      simp
    · rw [if_neg fun same => atEnd (Nat.succ.inj same)]
      rcases Nat.lt_or_gt_of_ne atEnd with left | right
      · rw [List.getElem?_append_left left, List.getElem?_append_left left]
      · have beyond (item : α) : (front ++ [item])[index]? = none := by
          rw [List.getElem?_eq_none]
          simpa using Nat.succ_le_of_lt right
        rw [beyond, beyond]

mutual

/-- Changing the last leaf fails only where there is none. -/
theorem map_leaves_mapLast? (f : α → α) (tree : Tree α) :
    (tree.mapLast? f).map leaves =
      if tree.leaves = [] then none else some (changeLast f tree.leaves) := by
  cases tree with
  | leaf item => simp [mapLast?, changeLast]
  | node kind children =>
    rw [mapLast?, leaves_node, ← map_leavesOf_mapLastOf? f children, Option.map_map]
    congr 1

/-- Changing the last leaf of a list of trees fails only where there is none. -/
theorem map_leavesOf_mapLastOf? (f : α → α) (trees : List (Tree α)) :
    (mapLastOf? f trees).map leavesOf =
      if leavesOf trees = [] then none else some (changeLast f (leavesOf trees)) := by
  cases trees with
  | nil => simp [mapLastOf?]
  | cons tree trees =>
    have last := map_leaves_mapLast? f tree
    have behind := map_leavesOf_mapLastOf? f trees
    rw [mapLastOf?]
    cases leavesEq : leavesOf trees with
    | nil =>
      simp only [leavesEq, ↓reduceIte, Option.map_eq_none_iff] at behind
      rw [behind, leavesOf_cons, leavesEq, List.append_nil, ← last, Option.map_map]
      congr 1
      funext changed
      simp [leavesEq]
    | cons item items =>
      simp only [leavesEq, List.cons_ne_nil, ↓reduceIte, Option.map_eq_some_iff] at behind
      obtain ⟨changed, found, changedLeaves⟩ := behind
      rw [found]
      simp [leavesEq, changedLeaves, changeLast_append]

end

/-- Changing the last leaf changes the last of all leaves. -/
@[simp] theorem leaves_mapLast (f : α → α) (tree : Tree α) :
    (tree.mapLast f).leaves = changeLast f tree.leaves :=
  leaves_getD (map_leaves_mapLast? f tree) fun empty => by rw [empty, changeLast_nil]

/-! ## The text of a list of trees -/

/-- The text of trees that follow each other. -/
def textOf (trees : List (Tree Token)) : List Char := (leavesOf trees).flatMap Token.text

@[simp] theorem textOf_nil : textOf [] = [] := rfl

@[simp] theorem textOf_cons (tree : Tree Token) (trees : List (Tree Token)) :
    textOf (tree :: trees) = tree.text ++ textOf trees := by
  simp [textOf, text]

@[simp] theorem textOf_append (left right : List (Tree Token)) :
    textOf (left ++ right) = textOf left ++ textOf right := by
  simp [textOf]

@[simp] theorem text_node (kind : Kind) (children : List (Tree Token)) :
    (node kind children).text = textOf children := by
  simp [textOf, text]

@[simp] theorem text_leaf (token : Token) : (leaf token).text = token.text := by
  simp [text]

end ServiceAnnotator.Tree
