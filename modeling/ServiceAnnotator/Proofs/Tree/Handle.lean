import ServiceAnnotator.Proofs.Tree.Measured
import ServiceAnnotator.Proofs.Tree.Place
import ServiceAnnotator.Syntax.Tree.Handle

/-!
# Handles are places

A handle finds its position in the stored lengths and edits the tree node by node, where a place
reads the texts again. Both say the same of every element, and so do the tokens below it.
-/

namespace ServiceAnnotator

namespace Handle

/-- Handles that are reached from the root of a tree by going on to children. -/
inductive Reached (root : Measured) : Handle → Prop
  | root : Reached root (.root root)
  | child {handle child : Handle} :
      Reached root handle → child ∈ handle.children → Reached root child

/-! ## Children -/

/-- The children of an element, each at its index behind those in front of it. -/
theorem mem_childrenFrom_iff {parent child : Handle} {index offset : Nat} {elements : List Measured} :
    child ∈ parent.childrenFrom index offset elements ↔
      ∃ front inner behind, elements = front ++ inner :: behind ∧
        child = .child parent (index + front.length) (offset + Measured.lengthOf front) inner :=
  Tree.mem_layout_iff (.child parent) parent.childrenFrom (fun _ _ => rfl) (fun _ _ _ _ => rfl) rfl
    (fun _ _ => rfl)

/-- The spans of the children follow each other. -/
theorem tile_childrenFrom (parent : Handle) (index offset : Nat) (elements : List Measured) :
    Span.Tile offset ((parent.childrenFrom index offset elements).map span)
      (offset + Measured.lengthOf elements) := by
  induction elements generalizing index offset with
  | nil => rfl
  | cons element elements ih =>
    rw [childrenFrom, List.map_cons, Measured.lengthOf, ← Nat.add_assoc]
    exact Span.tile_cons_ofLength.mpr (ih (index + 1) (offset + element.length))

@[simp] theorem path_child (parent : Handle) (index offset : Nat) (element : Measured) :
    (Handle.child parent index offset element).path = parent.path ++ [index] := by
  simp [path, ancestors, Handle.index, parent?]

/-- Only the root has an empty path. -/
theorem Reached.eq_root_or_path_ne_nil {root : Measured} {handle : Handle}
    (reached : Reached root handle) : handle = .root root ∨ handle.path ≠ [] := by
  cases reached with
  | root => exact .inl rfl
  | child _ inside =>
    obtain ⟨_, _, _, _, rfl⟩ := mem_childrenFrom_iff.mp inside
    right
    rw [path_child]
    exact List.concat_ne_nil _ _

/-! ## Tokens -/

mutual

/-- The search for the first token finds the first of all tokens. -/
theorem firstTokenOf?_eq (handle : Handle) (element : Measured) :
    firstTokenOf? handle element = (tokensOf handle element).head? := by
  cases element with
  | leaf token => rfl
  | node kind length elements => exact firstTokenFrom?_eq handle 0 handle.offset elements

theorem firstTokenFrom?_eq (parent : Handle) (index offset : Nat) (elements : List Measured) :
    firstTokenFrom? parent index offset elements = (tokensFrom parent index offset elements).head? := by
  cases elements with
  | nil => rfl
  | cons element elements =>
    have first := firstTokenOf?_eq (.child parent index offset element) element
    have behind := firstTokenFrom?_eq parent (index + 1) (offset + element.length) elements
    rw [firstTokenFrom?, tokensFrom, List.head?_append, first, behind]
    cases (tokensOf (.child parent index offset element) element).head? <;> rfl

end

mutual

/-- The tokens of an element are reached through the element. -/
theorem reached_of_mem_tokensOf {root : Measured} {handle : Handle} (reached : Reached root handle)
    (element : Measured) (same : handle.element = element) :
    ∀ token ∈ tokensOf handle element, Reached root token := by
  cases element with
  | leaf token =>
    intro other inside
    rw [tokensOf, List.mem_singleton] at inside
    rw [inside]
    exact reached
  | node kind length elements =>
    rw [tokensOf]
    apply reached_of_mem_tokensFrom
    intro child inside
    apply Reached.child reached
    rw [children, same]
    exact inside

theorem reached_of_mem_tokensFrom {root : Measured} {parent : Handle} {index offset : Nat}
    (elements : List Measured)
    (reached : ∀ child ∈ parent.childrenFrom index offset elements, Reached root child) :
    ∀ token ∈ tokensFrom parent index offset elements, Reached root token := by
  cases elements with
  | nil =>
    intro token inside
    cases inside
  | cons element elements =>
    intro token inside
    rw [tokensFrom, List.mem_append] at inside
    rw [childrenFrom] at reached
    rcases inside with first | behind
    · exact reached_of_mem_tokensOf (reached _ (.head _)) element rfl token first
    · exact reached_of_mem_tokensFrom elements (fun child found => reached child (.tail _ found)) token
        behind

end

/-- A position and what stands there. -/
def placement (handle : Handle) : Nat × Measured := (handle.offset, handle.element)

mutual

/-- The tokens below an element follow each other from its position on. -/
theorem placement_tokensOf (handle : Handle) (tree : Tree Token)
    (same : handle.element = tree.measured) :
    (tokensOf handle tree.measured).map placement =
      (PlacedToken.sequence handle.offset tree.leaves).map fun placed =>
        (placed.start, .leaf placed.token) := by
  cases tree with
  | leaf token =>
    rw [Tree.measured_leaf] at same ⊢
    simp [tokensOf, placement, PlacedToken.sequence, same]
  | node kind children =>
    have inside := placement_tokensFrom handle 0 handle.offset children
    rw [Tree.measured, Measured.make, tokensOf, Tree.leaves_node]
    exact inside

theorem placement_tokensFrom (parent : Handle) (index offset : Nat) (trees : List (Tree Token)) :
    (tokensFrom parent index offset (Tree.measuredAll trees)).map placement =
      (PlacedToken.sequence offset (Tree.leavesOf trees)).map fun placed =>
        (placed.start, .leaf placed.token) := by
  cases trees with
  | nil => rfl
  | cons tree trees =>
    have first := placement_tokensOf (.child parent index offset tree.measured) tree rfl
    have behind := placement_tokensFrom parent (index + 1) (offset + tree.byteLength) trees
    rw [Tree.measuredAll, tokensFrom, Tree.length_measured, List.map_append, first, behind,
      Tree.leavesOf_cons, PlacedToken.sequence_append, List.map_append]
    rfl

end

end Handle

/-! ## Agreement -/

/-- Whether a place and a handle say the same of an element. -/
structure Place.Agrees (place : Place) (handle : Handle) : Prop where
  element_eq : handle.element = place.element.measured
  offset_eq : handle.offset = place.start
  path_eq : handle.path = place.path
  replaceWith_eq : ∀ new : Tree Token,
    handle.replaceWith new.measured = .ok (place.replaceWith new).measured

namespace Place

theorem agrees_root (tree : Tree Token) : (root tree).Agrees (.root tree.measured) :=
  ⟨rfl, rfl, rfl, fun _ => rfl⟩

/-- A place and a handle that agree on a node agree on its children. -/
theorem Agrees.below {place : Place} {handle : Handle} (agrees : place.Agrees handle)
    {front behind : List (Tree Token)} {inner : Tree Token}
    (split : place.element.children = front ++ inner :: behind) :
    (place.below front inner).Agrees
      (.child handle front.length (handle.offset + Tree.lengthOf front) inner.measured) where
  element_eq := rfl
  offset_eq := by rw [Handle.offset, agrees.offset_eq, Place.below]
  path_eq := by rw [Handle.path_child, path_below, agrees.path_eq]
  replaceWith_eq := by
    intro new
    have fits : front.length < place.element.children.length := by simp [split]
    have step : place.element.put [front.length] new =
        place.element.withChildren (place.element.children.set front.length new) := by
      simp [Tree.put, List.modify_eq_set_getElem?, split]
    rw [Handle.replaceWith, agrees.element_eq, Measured.replaceChild_measured, Tree.replaceChild_eq,
      if_pos fits, step]
    exact agrees.replaceWith_eq _

variable {tree : Tree Token}

/-- Every handle that is reached from the root agrees with a place. -/
theorem exists_agrees {handle : Handle} (reached : handle.Reached tree.measured) :
    ∃ place, Within tree place ∧ place.Agrees handle := by
  induction reached with
  | root => exact ⟨root tree, .root, agrees_root tree⟩
  | child _ inside ih =>
    obtain ⟨place, within, agrees⟩ := ih
    obtain ⟨before, element, after, split, rfl⟩ := Handle.mem_childrenFrom_iff.mp inside
    rw [agrees.element_eq, Tree.children_measured] at split
    obtain ⟨front, rest, childrenEq, rfl, restEq⟩ := List.map_eq_append_iff.mp split
    obtain ⟨inner, behind, rfl, rfl, _⟩ := List.map_eq_cons_iff.mp restEq
    refine ⟨place.below front inner, .child within ?_, ?_⟩
    · exact mem_children_iff.mpr ⟨front, inner, behind, childrenEq, rfl⟩
    · rw [Nat.zero_add, List.length_map, Tree.lengthOf_map_measured]
      exact agrees.below childrenEq

/-- A place and a handle that agree give the element the same span. -/
theorem Agrees.span_eq {place : Place} {handle : Handle} (agrees : place.Agrees handle) :
    handle.span = place.span := by
  rw [Handle.span, agrees.offset_eq, agrees.element_eq, Tree.length_measured, Place.span]

/-- A place and a handle that agree find the same tokens in the same places. -/
theorem Agrees.placement_tokens {place : Place} {handle : Handle} (agrees : place.Agrees handle) :
    handle.tokens.map Handle.placement =
      place.tokens.map fun placed => (placed.start, .leaf placed.token) := by
  rw [Handle.tokens, agrees.element_eq,
    Handle.placement_tokensOf handle place.element agrees.element_eq,
    tokens_eq, agrees.offset_eq]

end Place

end ServiceAnnotator
