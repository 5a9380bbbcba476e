import ServiceAnnotator.Proofs.Tree.Edges
import ServiceAnnotator.Proofs.Tree.Placement
import ServiceAnnotator.Syntax.Tree.Measured

/-!
# Stored lengths are right

In a tree that is made from the leaves up each node stores the length of its text. An edit of such a
tree is the tree that is made from the edited one, so the stored lengths stay right.
-/

namespace ServiceAnnotator

namespace Tree

variable (tree : Tree Token)

@[simp] theorem measuredAll_eq_map (trees : List (Tree Token)) :
    measuredAll trees = trees.map measured := by
  induction trees with
  | nil => rfl
  | cons tree trees ih => rw [measuredAll, ih, List.map_cons]

@[simp] theorem measured_leaf (token : Token) : (leaf token).measured = .leaf token := rfl

@[simp] theorem measured_node (kind : Kind) (children : List (Tree Token)) :
    (node kind children).measured = .make kind (children.map measured) := by
  rw [measured, measuredAll_eq_map]

@[simp] theorem children_measured : tree.measured.children = tree.children.map measured := by
  cases tree <;> simp [Measured.children, Measured.make, children]

@[simp] theorem kind_measured : tree.measured.kind = tree.kind := by
  cases tree <;> simp [Measured.kind, Measured.make, kind, Kinded.kind]

@[simp] theorem isNode_measured : tree.measured.isNode = tree.isNode := by
  cases tree <;> simp [Measured.isNode, Measured.make, isNode]

mutual

/-- Without its lengths a tree is what it was. -/
theorem tree_measured (tree : Tree Token) : tree.measured.tree = tree := by
  cases tree with
  | leaf token => rfl
  | node kind children =>
    rw [measured, Measured.make, Measured.tree, trees_measuredAll children]

theorem trees_measuredAll (trees : List (Tree Token)) :
    Measured.trees (measuredAll trees) = trees := by
  cases trees with
  | nil => rfl
  | cons tree trees => rw [measuredAll, Measured.trees, tree_measured tree, trees_measuredAll trees]

end

attribute [simp] tree_measured

/-- A tree is known by what was made from it. -/
theorem measured_injective {left right : Tree Token} (same : left.measured = right.measured) :
    left = right := by
  rw [← tree_measured left, same, tree_measured]

@[simp] theorem text_measured : tree.measured.text = tree.text := by
  rw [Measured.text, tree_measured]

@[simp] theorem trimmedText_measured : tree.measured.trimmedText = tree.trimmedText := by
  rw [Measured.trimmedText, tree_measured]

mutual

/-- The stored length is the number of bytes of the text. -/
theorem length_measured (tree : Tree Token) : tree.measured.length = tree.byteLength := by
  cases tree with
  | leaf token => simp [Measured.length, byteLength, Token.byteLength]
  | node kind children =>
    rw [measured, Measured.make, Measured.length, byteLength_node, lengthOf_measuredAll children]

theorem lengthOf_measuredAll (trees : List (Tree Token)) :
    Measured.lengthOf (measuredAll trees) = lengthOf trees := by
  cases trees with
  | nil => rfl
  | cons tree trees =>
    rw [measuredAll, Measured.lengthOf, lengthOf_cons, length_measured tree,
      lengthOf_measuredAll trees]

end

attribute [simp] length_measured

@[simp] theorem lengthOf_map_measured (trees : List (Tree Token)) :
    Measured.lengthOf (trees.map measured) = lengthOf trees := by
  rw [← measuredAll_eq_map, lengthOf_measuredAll]

end Tree

namespace Measured

/-- Whether each node of a tree stores the number of bytes of its text. -/
inductive Exact : Measured → Prop
  | leaf (token : Token) : Exact (.leaf token)
  | node {kind : Kind} {length : Nat} {children : List Measured} :
      length = Text.byteLength (Measured.node kind length children).text →
        (∀ child ∈ children, Exact child) → Exact (.node kind length children)

mutual

/-- A tree that is made from the leaves up stores the right lengths. -/
theorem exact_measured (tree : Tree Token) : tree.measured.Exact := by
  cases tree with
  | leaf token => exact .leaf token
  | node kind children =>
    have stored := Tree.length_measured (.node kind children)
    have textEq := Tree.text_measured (.node kind children)
    rw [Tree.measured, make] at stored textEq ⊢
    refine .node ?_ (exact_of_mem_measuredAll children)
    rw [textEq]
    exact stored

theorem exact_of_mem_measuredAll (trees : List (Tree Token)) :
    ∀ child ∈ Tree.measuredAll trees, child.Exact := by
  cases trees with
  | nil =>
    intro child inside
    cases inside
  | cons tree trees =>
    intro child inside
    rw [Tree.measuredAll] at inside
    cases inside with
    | head => exact exact_measured tree
    | tail _ behind => exact exact_of_mem_measuredAll trees child behind

end

theorem trees_eq_map (elements : List Measured) : trees elements = elements.map tree := by
  induction elements with
  | nil => rfl
  | cons element elements ih => rw [trees, ih, List.map_cons]

/-- A tree with right lengths is the one that is made from its leaves up. -/
theorem Exact.measured_tree {element : Measured} (exact : element.Exact) :
    element.tree.measured = element := by
  induction exact with
  | leaf token => rfl
  | @node kind length children stored _ ih =>
    have again : (children.map tree).map Tree.measured = children := by
      rw [List.map_map]
      exact (List.map_congr_left ih).trans (List.map_id children)
    have length_eq : lengthOf children = length := by
      have bytes := Tree.length_measured (.node kind (children.map tree))
      rw [Tree.measured_node, again, make, Measured.length, Tree.byteLength] at bytes
      rw [bytes, stored, text, tree, trees_eq_map]
    rw [tree, trees_eq_map, Tree.measured_node, again, make, length_eq]

/-! ## Lookups and edits -/

variable (tree : Tree Token)

theorem elementAt?_measured (path : List Nat) :
    tree.measured.elementAt? path = (tree.elementAt? path).map Tree.measured := by
  induction path generalizing tree with
  | nil => rfl
  | cons index path ih =>
    cases path with
    | nil =>
      rw [elementAt?, Tree.elementAt?, Tree.children_measured, List.getElem?_map]
    | cons next path =>
      rw [elementAt?, Tree.elementAt?, Tree.children_measured, List.getElem?_map]
      · cases tree.children[index]? with
        | none => rfl
        | some child => exact ih child
      · exact List.cons_ne_nil next path
      · exact List.cons_ne_nil next path

theorem withChildren_measured (children : List (Tree Token)) :
    tree.measured.withChildren (children.map Tree.measured) =
      (tree.withChildren children).measured := by
  cases tree <;> simp [withChildren, Tree.withChildren, make]

theorem replaceChild_measured (index : Nat) (new : Tree Token) :
    tree.measured.replaceChild index new.measured =
      (tree.replaceChild index new).map Tree.measured := by
  rw [replaceChild, splice, Tree.replaceChild, Tree.splice, Tree.children_measured, List.length_map]
  by_cases fits : index ≤ index + 1 ∧ index + 1 ≤ tree.children.length
  · have parts : (tree.children.map Tree.measured).take index ++ [new.measured] ++
        (tree.children.map Tree.measured).drop (index + 1) =
        (tree.children.take index ++ [new] ++ tree.children.drop (index + 1)).map Tree.measured := by
      simp
    rw [if_pos fits, if_pos fits, parts, withChildren_measured]
    rfl
  · rw [if_neg fits, if_neg fits]
    rfl

/-- Editing a tree with stored lengths is editing the tree and storing the lengths. -/
theorem replaceAt_measured (path : List Nat) (new : Tree Token) :
    tree.measured.replaceAt path new.measured = (tree.replaceAt path new).map Tree.measured := by
  induction path generalizing tree with
  | nil => rfl
  | cons index path ih =>
    cases path with
    | nil => exact replaceChild_measured tree index new
    | cons next path =>
      rw [replaceAt, Tree.replaceAt, Tree.children_measured, List.getElem?_map]
      · cases tree.children[index]? with
        | none => rfl
        | some child =>
          cases child with
          | leaf token => rfl
          | node kind children =>
            have below := ih (.node kind children)
            rw [Tree.measured_node, make] at below
            simp only [Option.map_some, Tree.measured_node, make, below]
            cases (Tree.node kind children).replaceAt (next :: path) new with
            | error error => rfl
            | ok edited => exact replaceChild_measured tree index edited
      · exact List.cons_ne_nil next path
      · exact List.cons_ne_nil next path

/-! ## Edge tokens -/

theorem tokenAt?_measured :
    tree.measured.tokenAt? = fun path => (tree.elementAt? path).bind Tree.item? := by
  funext path
  rw [tokenAt?, Tree.tree_measured]

/-- The search for the first token of a node finds the first of its tokens. -/
theorem firstToken?_measured (kind : Kind) (children : List (Tree Token)) :
    (Tree.node kind children).measured.firstToken? = (Tree.node kind children).firstLeaf? := by
  rw [firstToken?, tokenAt?_measured, Tree.tree_measured]
  exact Tree.bind_elementAt?_of_node (Tree.subtree?_firstLeafPath? _)

/-- The search for the last token of a node finds the last of its tokens. -/
theorem lastToken?_measured (kind : Kind) (children : List (Tree Token)) :
    (Tree.node kind children).measured.lastToken? = (Tree.node kind children).lastLeaf? := by
  rw [lastToken?, tokenAt?_measured, Tree.tree_measured]
  exact Tree.bind_elementAt?_of_node (Tree.subtree?_lastLeafPath? _)

theorem leadingLength_measured :
    tree.measured.leadingLength = Text.byteLength tree.leadingText := by
  cases tree with
  | leaf token => rfl
  | node kind children =>
    have first := firstToken?_measured kind children
    rw [Tree.measured_node, make] at first ⊢
    rw [leadingLength, first, Tree.byteLength_leadingText]

theorem trailingLength_measured :
    tree.measured.trailingLength = Text.byteLength tree.trailingText := by
  cases tree with
  | leaf token => rfl
  | node kind children =>
    have last := lastToken?_measured kind children
    rw [Tree.measured_node, make] at last ⊢
    rw [trailingLength, last, Tree.byteLength_trailingText]

end Measured

end ServiceAnnotator
