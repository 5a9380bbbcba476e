import ServiceAnnotator.Proofs.Tree.Edges
import ServiceAnnotator.Proofs.Tree.Placement

/-!
# Places within a tree

A place that is reached from the root knows where its element lies: the path leads to the element,
the position counts the bytes of the text in front of it, and going back up with another element
puts this element at the path.
-/

namespace ServiceAnnotator

namespace Tree

/-- Another tree in place of a child changes the text of the child and nothing around it. -/
theorem text_put_child {tree inner : Tree Token} {front behind : List (Tree Token)}
    (split : tree.children = front ++ inner :: behind) (new : Tree Token) :
    (tree.put [front.length] new).text = textOf front ++ (new.text ++ textOf behind) := by
  cases tree with
  | leaf token => simp [children] at split
  | node kind children =>
    have childrenEq : children = front ++ inner :: behind := split
    have inside : children[front.length]? = some inner := by simp [childrenEq]
    rw [put_cons inside, childrenEq]
    simp [put]

end Tree

namespace Place

/-- The place of a child of an element, behind other children. -/
def below (place : Place) (front : List (Tree Token)) (inner : Tree Token) : Place :=
  ⟨inner, place.start + Tree.lengthOf front,
    ⟨place.element, place.start, front.length⟩ :: place.steps⟩

@[simp] theorem element_below (place : Place) (front : List (Tree Token)) (inner : Tree Token) :
    (place.below front inner).element = inner := rfl

/-- The children of an element, each with those in front of it. -/
theorem mem_children_iff {place child : Place} :
    child ∈ place.children ↔
      ∃ front inner behind, place.element.children = front ++ inner :: behind ∧
        child = place.below front inner := by
  rw [children, Tree.mem_layout_iff
    (fun index start inner => ⟨inner, start, ⟨place.element, place.start, index⟩ :: place.steps⟩)
    place.childrenFrom (fun _ _ => rfl) (fun _ _ _ _ => rfl) Tree.lengthOf_nil Tree.lengthOf_cons]
  simp only [below, Nat.zero_add]

@[simp] theorem path_root (tree : Tree Token) : (root tree).path = [] := rfl

@[simp] theorem path_below (place : Place) (front : List (Tree Token)) (inner : Tree Token) :
    (place.below front inner).path = place.path ++ [front.length] := by
  simp [path, below]

/-- The trimmed span of a place lies where the trimmed element stands. -/
theorem trimmedSpan_eq (place : Place) :
    place.trimmedSpan = .ofLength (place.start + Text.byteLength place.element.leadingText)
      (Text.byteLength place.element.trimmedText) := by
  have lengths := place.element.byteLength_eq_trimmedText
  have stop : place.start + place.element.byteLength - Text.byteLength place.element.trailingText =
      place.start + Text.byteLength place.element.leadingText +
        Text.byteLength place.element.trimmedText := by
    omega
  rw [trimmedSpan, ← Tree.byteLength_leadingText, ← Tree.byteLength_trailingText]
  simp only [span, Span.ofLength, stop]

/-- Places that are reached from the root by going on to children. -/
inductive Within (tree : Tree Token) : Place → Prop
  | root : Within tree (.root tree)
  | child {place child : Place} :
      Within tree place → child ∈ place.children → Within tree child

variable {tree : Tree Token} {place : Place}

/-- The path of a place leads to its element. -/
theorem Within.subtree?_path (within : Within tree place) :
    tree.subtree? place.path = some place.element := by
  induction within with
  | root => rfl
  | child _ inside ih =>
    obtain ⟨front, inner, behind, split, rfl⟩ := mem_children_iff.mp inside
    rw [path_below, Tree.subtree?_append, ih, Option.bind_some, Tree.subtree?_singleton, split,
      element_below]
    simp

/-- Going back up to the root puts an element at the path of the place. -/
theorem Within.replaceWith_eq (within : Within tree place) (new : Tree Token) :
    place.replaceWith new = tree.put place.path new := by
  induction within generalizing new with
  | root => rfl
  | @child outer _ around inside ih =>
    obtain ⟨front, inner, behind, split, rfl⟩ := mem_children_iff.mp inside
    have step : outer.element.withChildren (outer.element.children.set front.length new) =
        outer.element.put [front.length] new := by
      simp [Tree.put, List.modify_eq_set_getElem?, split]
    rw [path_below, Tree.put_append around.subtree?_path, ← step]
    exact ih _

/-- The position of a place is the number of bytes in front of it, and an element put there has its
text behind them. -/
theorem Within.text_put (within : Within tree place) :
    ∃ before after, Text.byteLength before = place.start ∧
      ∀ new, (tree.put place.path new).text = before ++ (new.text ++ after) := by
  induction within with
  | root => exact ⟨[], [], rfl, fun new => by simp [Tree.put]⟩
  | @child outer _ around inside ih =>
    obtain ⟨front, inner, behind, split, rfl⟩ := mem_children_iff.mp inside
    obtain ⟨before, after, startEq, textEq⟩ := ih
    refine ⟨before ++ Tree.textOf front, Tree.textOf behind ++ after, ?_, ?_⟩
    · rw [Text.byteLength_append, startEq]
      rfl
    · intro new
      rw [path_below, Tree.put_append around.subtree?_path, textEq, Tree.text_put_child split]
      simp only [List.append_assoc]

/-- The text of the element of a place stands in the text of the tree where the place says. -/
theorem Within.text_eq (within : Within tree place) :
    ∃ before after, Text.byteLength before = place.start ∧
      tree.text = before ++ (place.element.text ++ after) := by
  obtain ⟨before, after, startEq, textEq⟩ := within.text_put
  refine ⟨before, after, startEq, ?_⟩
  rw [← textEq place.element, Tree.put_self within.subtree?_path]

end Place

end ServiceAnnotator
