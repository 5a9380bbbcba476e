import Mathlib.Data.List.Basic
import ServiceAnnotator.Syntax.Tree.Edit

/-!
# The laws of replacement

Looking up the element at a path and putting another one there obey the laws of a lens: what was put
is found, putting back what was found changes nothing, and of two puts in one place the second one
counts. No element off the path changes. An edit at a path is such a put, and it fails only where
the path leads nowhere.
-/

namespace ServiceAnnotator.Tree

variable {α : Type}

/-- The tree at a path; at the empty path it is the tree itself. -/
def subtree? (tree : Tree α) : (path : List Nat) → Option (Tree α)
  | [] => some tree
  | index :: path => tree.children[index]?.bind fun child => child.subtree? path

/-- The tree with another one put at a path; where the path leads nowhere it stays as it is. -/
def put (tree : Tree α) : (path : List Nat) → (new : Tree α) → Tree α
  | [], new => new
  | index :: path, new =>
    tree.withChildren (tree.children.modify index fun child => child.put path new)

/-! ## Lookup -/

theorem subtree?_cons_eq_some_iff {tree found : Tree α} {index : Nat} {path : List Nat} :
    tree.subtree? (index :: path) = some found ↔
      ∃ child, tree.children[index]? = some child ∧ child.subtree? path = some found := by
  rw [subtree?, Option.bind_eq_some_iff]

theorem subtree?_append (tree : Tree α) (front behind : List Nat) :
    tree.subtree? (front ++ behind) =
      (tree.subtree? front).bind fun inner => inner.subtree? behind := by
  induction front generalizing tree with
  | nil => rfl
  | cons index front ih =>
    rw [List.cons_append, subtree?, subtree?]
    cases tree.children[index]? with
    | none => rfl
    | some child => exact ih child

@[simp] theorem subtree?_singleton (tree : Tree α) (index : Nat) :
    tree.subtree? [index] = tree.children[index]? := by
  cases found : tree.children[index]? <;> simp [subtree?, found]

/-- The root is no element, and any other path leads to the tree at that path. -/
theorem elementAt?_eq (tree : Tree α) (path : List Nat) :
    tree.elementAt? path = if path = [] then none else tree.subtree? path := by
  induction path generalizing tree with
  | nil => rfl
  | cons index path ih =>
    rw [if_neg (List.cons_ne_nil index path)]
    cases path with
    | nil => rw [elementAt?, subtree?_singleton]
    | cons next path =>
      have below (child : Tree α) :
          child.elementAt? (next :: path) = child.subtree? (next :: path) := by
        rw [ih, if_neg (List.cons_ne_nil next path)]
      rw [elementAt?, subtree?]
      · simp only [below]
      · exact List.cons_ne_nil next path

/-! ## Puts -/

@[simp] theorem children_put_cons (tree : Tree α) (index : Nat) (path : List Nat) (new : Tree α) :
    (tree.put (index :: path) new).children =
      tree.children.modify index fun child => child.put path new := by
  cases tree with
  | leaf item => simp [put, withChildren, children]
  | node kind inner => rfl

/-- A put below a child changes this child. -/
theorem put_cons {kind : Kind} {inner : List (Tree α)} {index : Nat} {child : Tree α}
    (inside : inner[index]? = some child) (path : List Nat) (new : Tree α) :
    (node kind inner).put (index :: path) new =
      node kind (inner.set index (child.put path new)) := by
  simp [put, withChildren, children, List.modify_eq_set_getElem?, inside]

/-- What was put in place of an element is found there. -/
theorem subtree?_put_self {tree old : Tree α} {path : List Nat} (found : tree.subtree? path = some old)
    (new : Tree α) : (tree.put path new).subtree? path = some new := by
  induction path generalizing tree with
  | nil => rfl
  | cons index path ih =>
    obtain ⟨child, inside, below⟩ := subtree?_cons_eq_some_iff.mp found
    rw [subtree?_cons_eq_some_iff]
    refine ⟨child.put path new, ?_, ih below⟩
    rw [children_put_cons, List.getElem?_modify_eq, inside]
    rfl

/-- Putting back what was there changes nothing. -/
theorem put_self {tree old : Tree α} {path : List Nat} (found : tree.subtree? path = some old) :
    tree.put path old = tree := by
  induction path generalizing tree with
  | nil => exact (Option.some.inj found).symm
  | cons index path ih =>
    obtain ⟨child, inside, below⟩ := subtree?_cons_eq_some_iff.mp found
    cases tree with
    | leaf item => simp [children] at inside
    | node kind inner =>
      have here : inner[index]? = some child := inside
      obtain ⟨fits, rfl⟩ := List.getElem?_eq_some_iff.mp here
      rw [put_cons here, ih below, List.set_getElem_self]

/-- A put further down is a put of the changed inner tree. -/
theorem put_append {tree inner : Tree α} {front : List Nat} (found : tree.subtree? front = some inner)
    (behind : List Nat) (new : Tree α) :
    tree.put (front ++ behind) new = tree.put front (inner.put behind new) := by
  induction front generalizing tree with
  | nil => rw [Option.some.inj found]; rfl
  | cons index front ih =>
    obtain ⟨child, inside, below⟩ := subtree?_cons_eq_some_iff.mp found
    cases tree with
    | leaf item => simp [children] at inside
    | node kind others =>
      have here : others[index]? = some child := inside
      rw [List.cons_append, put_cons here, put_cons here, ih below]

/-- No element off the path changes. -/
theorem subtree?_put_of_not_prefix (tree new : Tree α) {path other : List Nat}
    (notBelow : ¬ path <+: other) (notAbove : ¬ other <+: path) :
    (tree.put path new).subtree? other = tree.subtree? other := by
  induction path generalizing tree other with
  | nil => exact absurd List.nil_prefix notBelow
  | cons index path ih =>
    cases other with
    | nil => exact absurd List.nil_prefix notAbove
    | cons index' other =>
      rw [subtree?, subtree?, children_put_cons, List.getElem?_modify]
      by_cases same : index = index'
      · subst same
        have deeper (child : Tree α) : (child.put path new).subtree? other = child.subtree? other :=
          ih child (fun below => notBelow (List.cons_prefix_cons.mpr ⟨rfl, below⟩))
            (fun above => notAbove (List.cons_prefix_cons.mpr ⟨rfl, above⟩))
        cases tree.children[index]? with
        | none => rfl
        | some child => simpa using deeper child
      · simp [same]

/-- Above the path an element has the put further down in it. -/
theorem subtree?_put_of_prefix (tree new : Tree α) (front behind : List Nat) :
    (tree.put (front ++ behind) new).subtree? front =
      (tree.subtree? front).map fun inner => inner.put behind new := by
  induction front generalizing tree with
  | nil => rfl
  | cons index front ih =>
    rw [List.cons_append, subtree?, subtree?, children_put_cons, List.getElem?_modify_eq]
    cases tree.children[index]? with
    | none => rfl
    | some child => exact ih child

section Kinds

variable [Kinded α]

/-- A put below an element leaves its kind and the number of its children as they are. -/
theorem shape_put_cons (tree : Tree α) (index : Nat) (path : List Nat) (new : Tree α) :
    (tree.put (index :: path) new).kind = tree.kind ∧
      (tree.put (index :: path) new).children.length = tree.children.length := by
  constructor
  · cases tree <;> rfl
  · rw [children_put_cons, List.length_modify]

end Kinds

/-! ## Edits -/

/-- Replacing a child is a put where the node has such a child. -/
theorem replaceChild_eq (tree : Tree α) (index : Nat) (new : Tree α) :
    tree.replaceChild index new =
      if index < tree.children.length then .ok (tree.put [index] new) else .error .outOfRange := by
  rw [replaceChild, splice]
  by_cases inside : index < tree.children.length
  · have parts : tree.children.take index ++ [new] ++ tree.children.drop (index + 1) =
        tree.children.modify index fun _ => new := by
      rw [List.modify_eq_take_cons_drop inside]
      simp
    rw [if_pos ⟨Nat.le_succ index, inside⟩, if_pos inside, parts]
    rfl
  · rw [if_neg fun fits => inside fits.2, if_neg inside]

/-- An edit further down edits the inner node and puts it back. -/
theorem replaceAt_append {tree : Tree α} {front : List Nat} {kind : Kind} {inner : List (Tree α)}
    (found : tree.subtree? front = some (.node kind inner)) {behind : List Nat}
    (nonempty : behind ≠ []) (new : Tree α) :
    tree.replaceAt (front ++ behind) new =
      ((Tree.node kind inner).replaceAt behind new).map fun edited => tree.put front edited := by
  induction front generalizing tree with
  | nil =>
    rw [← Option.some.inj found]
    cases edited : Tree.replaceAt tree behind new <;> simp [put, edited, Except.map]
  | cons index front ih =>
    obtain ⟨child, inside, below⟩ := subtree?_cons_eq_some_iff.mp found
    have further : front ++ behind ≠ [] := List.append_ne_nil_of_right_ne_nil front nonempty
    have fits : index < tree.children.length := (List.getElem?_eq_some_iff.mp inside).1
    have isNode : ∃ kind children, child = .node kind children := by
      cases child with
      | node kind children => exact ⟨kind, children, rfl⟩
      | leaf item => cases front <;> simp [subtree?, children] at below
    obtain ⟨childKind, grandchildren, rfl⟩ := isNode
    rw [List.cons_append, replaceAt, inside]
    · simp only [ih below, replaceChild_eq, if_pos fits]
      cases (Tree.node kind inner).replaceAt behind new with
      | error error => rfl
      | ok edited =>
        have same : tree.put [index] ((Tree.node childKind grandchildren).put front edited) =
            tree.put (index :: front) edited := by
          have here : tree.subtree? [index] = some (.node childKind grandchildren) := by
            rw [subtree?_singleton, inside]
          exact (put_append here front edited).symm
        exact congrArg Except.ok same
    · exact further

/-- Why a path leads to no element: it is empty, or an index lies behind the last child of a node,
or it goes on below a leaf. -/
inductive Fault (tree : Tree α) : List Nat → EditError → Prop
  | emptyPath : Fault tree [] .emptyPath
  | outOfRange (front : List Nat) {behind : List Nat} {index : Nat} {kind : Kind}
      {inner : List (Tree α)} :
      tree.subtree? front = some (.node kind inner) → inner.length ≤ index →
        Fault tree (front ++ index :: behind) .outOfRange
  | belowLeaf (front : List Nat) {behind : List Nat} {index : Nat} {item : α} :
      tree.subtree? front = some (.leaf item) → Fault tree (front ++ index :: behind) .belowLeaf

/-- A fault below a child is a fault of the tree. -/
theorem Fault.cons {tree child : Tree α} {index : Nat} (inside : tree.children[index]? = some child)
    {path : List Nat} {error : EditError} (nonempty : path ≠ []) (fault : child.Fault path error) :
    tree.Fault (index :: path) error := by
  cases fault with
  | emptyPath => exact absurd rfl nonempty
  | outOfRange front found beyond =>
    exact .outOfRange (index :: _) (subtree?_cons_eq_some_iff.mpr ⟨child, inside, found⟩)
      beyond
  | belowLeaf front found =>
    exact .belowLeaf (index :: _) (subtree?_cons_eq_some_iff.mpr ⟨child, inside, found⟩)

/-- An edit at the path of an element puts the new element there. -/
theorem replaceAt_of_found {tree old : Tree α} {path : List Nat} (nonempty : path ≠ [])
    (found : tree.subtree? path = some old) (new : Tree α) :
    tree.replaceAt path new = .ok (tree.put path new) := by
  obtain ⟨front, last, rfl⟩ := List.eq_nil_or_concat path |>.resolve_left nonempty
  rw [List.concat_eq_append] at found ⊢
  rw [subtree?_append, Option.bind_eq_some_iff] at found
  obtain ⟨inner, above, inside⟩ := found
  rw [subtree?_singleton] at inside
  cases inner with
  | leaf item => simp [children] at inside
  | node kind children =>
    have fits : last < (Tree.node kind children).children.length :=
      (List.getElem?_eq_some_iff.mp inside).1
    have edit : (Tree.node kind children).replaceAt [last] new =
        .ok ((Tree.node kind children).put [last] new) := by
      rw [replaceAt, replaceChild_eq, if_pos fits]
    rw [replaceAt_append above (List.cons_ne_nil _ _), edit, put_append above]
    rfl

end ServiceAnnotator.Tree
