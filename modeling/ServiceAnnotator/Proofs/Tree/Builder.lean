import ServiceAnnotator.Proofs.Tree.Assembled
import ServiceAnnotator.Proofs.Tree.Linearization
import ServiceAnnotator.Syntax.Tree.Builder

/-!
# The flat list builds the tree

The flat list of a builder with its places of open nodes is a partly assembled tree, written down in
another way. So the builder ends as assembly does: with the tree whose calls were made, and with a
failure for all other calls.
-/

namespace ServiceAnnotator

namespace Tree

mutual

/-- The tree with the length of each node, made from the leaves up. -/
def sized : Tree Slice → SliceTree
  | .leaf slice => .leaf slice
  | .node kind children => .make kind (sizedAll children)

/-- `Tree.sized` for each tree of a list. -/
def sizedAll : List (Tree Slice) → List SliceTree
  | [] => []
  | tree :: trees => sized tree :: sizedAll trees

end

@[simp] theorem sizedAll_eq_map (trees : List (Tree Slice)) : sizedAll trees = trees.map sized := by
  induction trees with
  | nil => rfl
  | cons tree trees ih => rw [sizedAll, ih, List.map_cons]

@[simp] theorem sized_leaf (slice : Slice) : (leaf slice).sized = .leaf slice := by rw [sized]

@[simp] theorem sized_node (kind : Kind) (children : List (Tree Slice)) :
    (node kind children).sized = .make kind (children.map sized) := by
  rw [sized, sizedAll_eq_map]

mutual

/-- Without its lengths a tree is what it was. -/
@[simp] theorem tree_sized (tree : Tree Slice) : tree.sized.tree = tree := by
  cases tree with
  | leaf slice => rw [sized, SliceTree.tree]
  | node kind children => rw [sized, SliceTree.make, SliceTree.tree, trees_sizedAll children]

theorem trees_sizedAll (trees : List (Tree Slice)) : SliceTree.trees (sizedAll trees) = trees := by
  cases trees with
  | nil => rw [sizedAll, SliceTree.trees]
  | cons tree trees => rw [sizedAll, SliceTree.trees, tree_sized tree, trees_sizedAll trees]

end

/-- The sum of the lengths of tokens. -/
def lengths : List Slice → Nat
  | [] => 0
  | slice :: slices => Text.byteLength slice.text + lengths slices

theorem lengths_append (slices more : List Slice) :
    lengths (slices ++ more) = lengths slices + lengths more := by
  induction slices with
  | nil => rw [List.nil_append, lengths, Nat.zero_add]
  | cons slice slices ih => rw [List.cons_append, lengths, lengths, ih, Nat.add_assoc]

/-- The sum of the lengths of the tokens of trees. -/
def totalLength (trees : List (Tree Slice)) : Nat := lengths (leavesOf trees)

theorem totalLength_cons (tree : Tree Slice) (trees : List (Tree Slice)) :
    totalLength (tree :: trees) = totalLength [tree] + totalLength trees := by
  simp [totalLength, lengths_append]

mutual

/-- The stored length is the sum of the lengths of the tokens. -/
theorem length_sized (tree : Tree Slice) : tree.sized.length = totalLength [tree] := by
  cases tree with
  | leaf slice => simp [SliceTree.length, totalLength, lengths]
  | node kind children =>
    have inside := lengthOf_sizedAll children
    rw [sized, SliceTree.make, SliceTree.length, inside]
    simp [totalLength]

theorem lengthOf_sizedAll (trees : List (Tree Slice)) :
    SliceTree.lengthOf (sizedAll trees) = totalLength trees := by
  cases trees with
  | nil => simp [SliceTree.lengthOf, totalLength, lengths]
  | cons tree trees =>
    rw [sizedAll, SliceTree.lengthOf, totalLength_cons, length_sized tree, lengthOf_sizedAll trees]

end

end Tree

namespace SliceTree

/-- Whether each node of a tree stores the sum of the lengths of its tokens. -/
inductive Sums : SliceTree → Prop
  | leaf (slice : Slice) : Sums (.leaf slice)
  | node {kind : Kind} {length : Nat} {children : List SliceTree} :
      length = Tree.totalLength (trees children) → (∀ child ∈ children, Sums child) →
      Sums (.node kind length children)

theorem trees_eq_map (elements : List SliceTree) : trees elements = elements.map tree := by
  induction elements with
  | nil => rw [trees, List.map_nil]
  | cons element elements ih => rw [trees, ih, List.map_cons]

mutual

/-- A tree that is made from the leaves up stores the sums. -/
theorem sums_sized (tree : Tree Slice) : tree.sized.Sums := by
  cases tree with
  | leaf slice =>
    rw [Tree.sized]
    exact .leaf slice
  | node kind children =>
    rw [Tree.sized, make]
    refine .node ?_ (sums_of_mem_sizedAll children)
    rw [Tree.lengthOf_sizedAll, Tree.trees_sizedAll]

theorem sums_of_mem_sizedAll (trees : List (Tree Slice)) :
    ∀ child ∈ Tree.sizedAll trees, child.Sums := by
  cases trees with
  | nil =>
    intro child inside
    rw [Tree.sizedAll] at inside
    cases inside
  | cons tree trees =>
    intro child inside
    rw [Tree.sizedAll] at inside
    cases inside with
    | head => exact sums_sized tree
    | tail _ behind => exact sums_of_mem_sizedAll trees child behind

end

/-- A tree that stores the sums is the one that is made from its leaves up. -/
theorem Sums.sized_tree {element : SliceTree} (sums : element.Sums) :
    element.tree.sized = element := by
  induction sums with
  | leaf slice => rw [tree, Tree.sized]
  | @node kind length children stored _ ih =>
    have again : (children.map tree).map Tree.sized = children := by
      rw [List.map_map]
      exact (List.map_congr_left ih).trans (List.map_id children)
    have sum_eq : lengthOf children = length := by
      rw [stored, ← Tree.lengthOf_sizedAll, trees_eq_map, Tree.sizedAll_eq_map, again]
    rw [tree, trees_eq_map, Tree.sized_node, again, make, sum_eq]

end SliceTree

/-! ## The builder is assembly -/

namespace Builder

theorem ext {left right : Builder} (sameParents : left.parents = right.parents)
    (sameElements : left.elements = right.elements) : left = right := by
  cases left
  cases right
  cases sameParents
  cases sameElements
  rfl

/-- The elements in front of the children of the innermost open node, the first one first. -/
def inFront : List (Kind × List (Tree Slice)) → List (Tree Slice)
  | [] => []
  | (_, before) :: outer => inFront outer ++ before.reverse

/-- The open nodes, each with the number of elements in front of its children. -/
def starts : List (Kind × List (Tree Slice)) → List (Kind × Nat)
  | [] => []
  | (kind, before) :: outer => (kind, (inFront outer ++ before.reverse).length) :: starts outer

theorem nested_starts (enclosing : List (Kind × List (Tree Slice))) {count : Nat}
    (behind : (inFront enclosing).length ≤ count) :
    (count :: (starts enclosing).map Prod.snd).Pairwise (· ≥ ·) := by
  induction enclosing generalizing count with
  | nil => exact List.pairwise_singleton ..
  | cons innermost outer ih =>
    obtain ⟨kind, before⟩ := innermost
    have fewer : (inFront outer).length ≤ (inFront outer ++ before.reverse).length := by
      rw [List.length_append]
      exact Nat.le_add_right ..
    have ordered := ih fewer
    refine List.pairwise_cons.mpr ⟨?_, ordered⟩
    intro start inside
    cases inside with
    | head => exact behind
    | tail _ isOuter => exact Nat.le_trans (List.rel_of_pairwise_cons ordered isOuter) behind

/-- The partly assembled tree, written down with a flat list. -/
def ofAssembly (state : Assembly Slice) : Builder where
  parents := starts state.enclosing
  elements := (inFront state.enclosing ++ state.elements.reverse).map Tree.sized
  nested := by
    refine nested_starts state.enclosing ?_
    rw [List.length_map, List.length_append]
    exact Nat.le_add_right ..

theorem finishNode_of_nil {builder : Builder} (none : builder.parents = []) :
    builder.finishNode = .error .unbalancedFinish := by
  rw [finishNode]
  split
  · rfl
  · simp_all

/-- Closing a node takes its children off the list. -/
theorem finishNode_of_cons {builder : Builder} {kind : Kind} {first : Nat}
    {parents : List (Kind × Nat)} (closed : Builder)
    (innermost : builder.parents = (kind, first) :: parents)
    (sameParents : closed.parents = parents)
    (sameElements : closed.elements =
      builder.elements.take first ++ [.make kind (builder.elements.drop first)]) :
    builder.finishNode = .ok closed := by
  rw [finishNode]
  split
  · simp_all
  · next other otherFirst otherParents found =>
    obtain ⟨sameFirst, rfl⟩ := List.cons.inj (found.symm.trans innermost)
    obtain ⟨rfl, rfl⟩ := Prod.mk.inj sameFirst
    exact congrArg Except.ok (ext sameParents.symm sameElements.symm)

theorem finishNode_ofAssembly (state : Assembly Slice) :
    (ofAssembly state).finishNode = (state.step .finish).map ofAssembly := by
  obtain ⟨enclosing, elements⟩ := state
  cases enclosing with
  | nil => exact finishNode_of_nil rfl
  | cons innermost outer =>
    obtain ⟨kind, before⟩ := innermost
    refine finishNode_of_cons (ofAssembly ⟨outer, .node kind elements.reverse :: before⟩) rfl rfl ?_
    have parted : (ofAssembly ⟨(kind, before) :: outer, elements⟩).elements =
        (inFront outer ++ before.reverse).map Tree.sized ++ elements.reverse.map Tree.sized :=
      List.map_append
    have count : (inFront outer ++ before.reverse).length =
        ((inFront outer ++ before.reverse).map Tree.sized).length := (List.length_map ..).symm
    rw [parted, count, List.take_left, List.drop_left]
    simp [ofAssembly]

theorem step_ofAssembly (cs : List Char) (state : Assembly Slice) (call : SourceCall) :
    (ofAssembly state).step cs call = (SourceCall.step cs state call).map ofAssembly := by
  cases call with
  | start kind =>
    refine congrArg Except.ok (ext ?_ ?_)
    · simp [startNode, ofAssembly, starts, inFront]
    · simp [startNode, ofAssembly, inFront]
  | token raw =>
    obtain ⟨leading, kind, lexeme, trailing⟩ := raw
    rw [step, SourceCall.step, SourceCall.cut]
    cases Slice.cut? cs leading kind lexeme trailing with
    | none => rfl
    | some slice =>
      refine congrArg Except.ok (ext rfl ?_)
      simp [token, ofAssembly]
  | finish => exact finishNode_ofAssembly state

theorem foldlM_ofAssembly (cs : List Char) (calls : List SourceCall) (state : Assembly Slice) :
    calls.foldlM (step cs) (ofAssembly state) =
      (calls.foldlM (SourceCall.step cs) state).map ofAssembly := by
  induction calls generalizing state with
  | nil => rfl
  | cons call calls ih =>
    rw [List.foldlM_cons, List.foldlM_cons, step_ofAssembly]
    cases SourceCall.step cs state call with
    | error reason => rfl
    | ok next => exact ih next

theorem finish_of_length_ne_one {builder : Builder} (closed : builder.parents = [])
    (several : builder.elements.length ≠ 1) : builder.finish = .error .notSingleRoot := by
  rw [finish, if_neg (not_not_intro closed)]
  match builder.elements, several with
  | [], _ => rfl
  | [_], several => exact absurd rfl several
  | first :: _ :: _, _ => cases first <;> rfl

theorem finish_ofAssembly (state : Assembly Slice) :
    (ofAssembly state).finish = state.finish.map Tree.sized := by
  obtain ⟨enclosing, elements⟩ := state
  cases enclosing with
  | cons innermost outer => rfl
  | nil =>
    by_cases single : elements.length = 1
    · obtain ⟨root, rfl⟩ := List.length_eq_one_iff.mp single
      cases root with
      | leaf slice => simp [ofAssembly, starts, inFront, finish, Assembly.finish, Except.map]
      | node kind children =>
        simp [ofAssembly, starts, inFront, finish, Assembly.finish, Except.map, SliceTree.make]
    · have several : (ofAssembly ⟨[], elements⟩).elements.length ≠ 1 := by
        simpa [ofAssembly, inFront] using single
      rw [finish_of_length_ne_one rfl several, Assembly.finish_of_length_ne_one single]
      rfl

/-- The builder builds what the calls assemble. -/
theorem run_eq (cs : List Char) (calls : List SourceCall) :
    run cs calls = (SourceCall.assemble cs calls).map Tree.sized := by
  have folded := foldlM_ofAssembly cs calls Assembly.empty
  have begins : ofAssembly Assembly.empty = empty := ext rfl rfl
  have assembles : SourceCall.assemble cs calls =
      calls.foldlM (SourceCall.step cs) Assembly.empty >>= Assembly.finish := rfl
  rw [begins] at folded
  rw [run, folded, assembles]
  cases calls.foldlM (SourceCall.step cs) Assembly.empty with
  | error reason => rfl
  | ok state => exact finish_ofAssembly state

end Builder

/-! ## Tokens that lie in the text -/

namespace RawToken

/-- The span of a token, widened by its trivia. -/
def widened : RawToken → Span
  | (leading, _, lexeme, trailing) =>
    ⟨lexeme.start - Slice.lengthOf leading, lexeme.stop + Slice.lengthOf trailing⟩

/-- Whether the span of a token, widened by its trivia, goes from one character boundary of a text
to another. -/
def LiesIn (cs : List Char) (raw : RawToken) : Prop :=
  Slice.lengthOf raw.1 ≤ raw.2.2.1.start ∧ raw.2.2.1.start ≤ raw.2.2.1.stop ∧
    ∃ front part behind, cs = front ++ (part ++ behind) ∧
      raw.widened = ⟨Text.byteLength front, Text.byteLength (front ++ part)⟩

/-- The token with the part of the text that lies in its widened span. -/
def slice (cs : List Char) : RawToken → Slice
  | raw@(leading, kind, _, trailing) =>
    ⟨leading, kind, (Text.slice? raw.widened.start raw.widened.stop cs).getD [], trailing⟩

end RawToken

namespace Builder

/-! ## How building ends -/

variable {cs : List Char} {calls : List SourceCall}

/-- Whether a tree was built from a tree of tokens that are given by their places in a text. -/
structure Builds (cs : List Char) (tree : Tree RawToken) (built : SliceTree) : Prop where
  /-- Its nodes and tokens are the same. -/
  shape : built.tree = tree.map (RawToken.slice cs)
  /-- Each token has the part of the text that lies in its widened span. -/
  texts : ∀ raw ∈ tree.leaves,
    Text.slice? raw.widened.start raw.widened.stop cs = some (raw.slice cs).text
  /-- Each node stores the sum of the lengths of its tokens. -/
  lengths : built.Sums

/-- A tree of tokens determines what is built from it. -/
theorem Builds.unique {tree : Tree RawToken} {built other : SliceTree}
    (isBuilt : Builds cs tree built) (isOther : Builds cs tree other) : built = other := by
  rw [← isBuilt.lengths.sized_tree, isBuilt.shape, ← isOther.shape, isOther.lengths.sized_tree]

end Builder

end ServiceAnnotator
