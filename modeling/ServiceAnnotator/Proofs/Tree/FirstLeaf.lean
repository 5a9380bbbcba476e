import Mathlib.Data.List.Forall2
import ServiceAnnotator.Proofs.Tree.EdgeChange

/-!
# Trees that differ in their first leaf

Changing the first leaf of a tree keeps the form of the tree, so that a view of the tree finds what
it has found before: the same part, or the part with its first leaf changed.
-/

namespace ServiceAnnotator.Tree

variable {α β : Type}

/-! ## Form and leaves -/

mutual

/-- A tree is known by its form and its leaves. -/
theorem eq_of_map {g : α → β} {left right : Tree α} (form : left.map g = right.map g)
    (leaves : left.leaves = right.leaves) : left = right := by
  match left, right with
  | .leaf item, .leaf other => simpa using leaves
  | .leaf _, .node _ _ => simp at form
  | .node _ _, .leaf _ => simp at form
  | .node kind children, .node other others =>
    rw [map_node, map_node, Tree.node.injEq] at form
    rw [leaves_node, leaves_node] at leaves
    rw [form.1, eq_of_mapAll form.2 leaves]

/-- Trees that follow each other are known by their forms and their leaves. -/
theorem eq_of_mapAll {g : α → β} {left right : List (Tree α)}
    (form : mapAll g left = mapAll g right) (leaves : leavesOf left = leavesOf right) :
    left = right := by
  match left, right with
  | [], [] => rfl
  | [], _ :: _ => simp at form
  | _ :: _, [] => simp at form
  | tree :: trees, other :: others =>
    rw [mapAll_cons, mapAll_cons, List.cons.injEq] at form
    rw [leavesOf_cons, leavesOf_cons] at leaves
    -- Trees of the same form have the same number of leaves.
    have lengthEq : tree.leaves.length = other.leaves.length := by
      have sameLeaves := congrArg (fun tree => tree.leaves.length) form.1
      simpa using sameLeaves
    obtain ⟨first, behind⟩ := List.append_inj leaves lengthEq
    rw [eq_of_map form.1 first, eq_of_mapAll form.2 behind]

end

/-- Changing the first leaf keeps the form of a tree. -/
theorem map_mapFirst {f : α → α} {g : α → β} (same : ∀ item, g (f item) = g item) (tree : Tree α) :
    (tree.mapFirst f).map g = tree.map g :=
  map_mapEdge .first f same tree

/-- Of two changes of the first leaf only the second one counts, if it forgets the first one. -/
theorem mapFirst_mapFirst {f g : α → α} {h : α → β} (keepsF : ∀ item, h (f item) = h item)
    (keepsG : ∀ item, h (g item) = h item) (forgets : ∀ item, g (f item) = g item) (tree : Tree α) :
    (tree.mapFirst f).mapFirst g = tree.mapFirst g := by
  apply eq_of_map (g := h)
  · rw [map_mapFirst keepsG, map_mapFirst keepsF, map_mapFirst keepsG]
  · rw [leaves_mapFirst, leaves_mapFirst, leaves_mapFirst, List.modifyHead_modifyHead]
    cases tree.leaves with
    | nil => rfl
    | cons first rest => simp [forgets]

/-! ## Parts of a tree -/

/-- Whether a tree is another one, or that tree with its first leaf changed. -/
def Shifted (f : α → α) (left right : Tree α) : Prop := right = left ∨ right = left.mapFirst f

theorem mapFirst_node (f : α → α) (kind : Kind) (children : List (Tree α)) :
    (node kind children).mapFirst f = node kind ((mapFirstOf? f children).getD children) := by
  rw [mapFirst, mapFirst?]
  cases mapFirstOf? f children <;> rfl

/-- The first leaf of a node lies in its first child, if that has one. -/
theorem mapFirst_node_cons (f : α → α) (kind : Kind) {tree : Tree α} (nonempty : tree.leaves ≠ [])
    (trees : List (Tree α)) :
    (node kind (tree :: trees)).mapFirst f = node kind (tree.mapFirst f :: trees) := by
  have nothing : leavesOf (Edge.first.beside [] trees) = [] := leavesOf_nil
  exact mapEdge_node f kind nothing nonempty

/-- The first leaf of a list of trees lies in one of them, and the others stay as they are. -/
theorem shifted_mapFirstOf? (f : α → α) (trees : List (Tree α)) :
    List.Forall₂ (Shifted f) trees ((mapFirstOf? f trees).getD trees) := by
  have unchanged (trees : List (Tree α)) : List.Forall₂ (Shifted f) trees trees :=
    List.forall₂_same.mpr fun tree _ => .inl rfl
  induction trees with
  | nil => exact .nil
  | cons tree trees ih =>
    rw [mapFirstOf?]
    cases first : tree.mapFirst? f with
    | some edit =>
      refine .cons (.inr ?_) (unchanged trees)
      rw [mapFirst, first, Option.getD_some]
    | none =>
      cases behind : mapFirstOf? f trees with
      | none => exact unchanged (tree :: trees)
      | some edits =>
        rw [behind] at ih
        exact .cons (.inl rfl) ih

variable [Kinded α] {f : α → α}

section

variable (keeps : ∀ item, Kinded.kind (f item) = Kinded.kind item)

include keeps

theorem kind_mapFirst (tree : Tree α) :
    (tree.mapFirst f).kind = tree.kind ∧ (tree.mapFirst f).isNode = tree.isNode := by
  cases tree with
  | leaf item => exact ⟨keeps item, rfl⟩
  | node kind children =>
    rw [mapFirst_node]
    exact ⟨rfl, rfl⟩

theorem Shifted.kind_eq {left right : Tree α} (shifted : Shifted f left right) :
    right.kind = left.kind ∧ right.isNode = left.isNode := by
  rcases shifted with rfl | rfl
  · exact ⟨rfl, rfl⟩
  · exact kind_mapFirst keeps left

/-- The child nodes of some kinds are found in the same places. -/
theorem Shifted.nodesWhere {left right : Tree α} (shifted : Shifted f left right) (p : Kind → Bool) :
    List.Forall₂ (Shifted f) (left.nodesWhere p) (right.nodesWhere p) := by
  have children : List.Forall₂ (Shifted f) left.children right.children := by
    rcases shifted with rfl | rfl
    · exact List.forall₂_same.mpr fun tree _ => .inl rfl
    · cases left with
      | leaf item => exact .nil
      | node kind children =>
        rw [mapFirst_node]
        exact shifted_mapFirstOf? f children
  refine List.rel_filter ?_ (List.rel_filter ?_ children)
  · intro child child' shifted
    simp only [(shifted.kind_eq keeps).1]
  · intro child child' shifted
    simp only [(shifted.kind_eq keeps).2]

/-- The first child node of some kinds is missing in both trees, or the same up to its first
leaf. -/
theorem Shifted.nodeWhere? {left right : Tree α} (shifted : Shifted f left right)
    (p : Kind → Bool) :
    (left.nodeWhere? p = none ∧ right.nodeWhere? p = none) ∨
      ∃ part part', left.nodeWhere? p = some part ∧ right.nodeWhere? p = some part' ∧
        Shifted f part part' := by
  have nodes := shifted.nodesWhere keeps p
  have isHead (tree : Tree α) : tree.nodeWhere? p = (tree.nodesWhere p).head? :=
    List.head?_filter.symm
  rw [isHead, isHead]
  generalize left.nodesWhere p = found, right.nodesWhere p = found' at nodes
  cases nodes with
  | nil => exact .inl ⟨rfl, rfl⟩
  | cons first _ => exact .inr ⟨_, _, rfl, rfl, first⟩

end

end ServiceAnnotator.Tree
