import ServiceAnnotator.Proofs.Syntax.Layout
import ServiceAnnotator.Proofs.Tree.Leaves
import ServiceAnnotator.Syntax.Tree.Place

/-!
# Positions in a tree

The tokens of a tree with positions are the leaves of the tree, each where the text of those in
front of it ends.
-/

namespace ServiceAnnotator

namespace Tree

/-- Number of bytes of the text of trees that follow each other. -/
def lengthOf (trees : List (Tree Token)) : Nat := Text.byteLength (textOf trees)

@[simp] theorem lengthOf_nil : lengthOf [] = 0 := rfl

@[simp] theorem lengthOf_cons (tree : Tree Token) (trees : List (Tree Token)) :
    lengthOf (tree :: trees) = tree.byteLength + lengthOf trees := by
  simp [lengthOf, byteLength]

theorem byteLength_node (kind : Kind) (children : List (Tree Token)) :
    (node kind children).byteLength = lengthOf children := by
  simp [byteLength, lengthOf]

mutual

/-- A tree that starts at a position ends behind its text, and its tokens follow each other. -/
theorem place_eq (start : Nat) (tree : Tree Token) :
    (place start tree).1.leaves = PlacedToken.sequence start tree.leaves ∧
      (place start tree).2 = start + tree.byteLength := by
  cases tree with
  | leaf token => simp [place, PlacedToken.sequence, byteLength, Token.byteLength]
  | node kind children =>
    have behind := placeAll_eq start children
    rw [byteLength_node]
    simpa [place] using behind

/-- Trees that follow each other are placed one behind the other. -/
theorem placeAll_eq (start : Nat) (trees : List (Tree Token)) :
    leavesOf (placeAll start trees).1 = PlacedToken.sequence start (leavesOf trees) ∧
      (placeAll start trees).2 = start + lengthOf trees := by
  cases trees with
  | nil => simp [placeAll, PlacedToken.sequence]
  | cons tree trees =>
    have first := place_eq start tree
    have behind := placeAll_eq (place start tree).2 trees
    rw [first.2] at behind
    simp only [placeAll]
    constructor
    · rw [leavesOf_cons, leavesOf_cons, PlacedToken.sequence_append, first.1, first.2, behind.1]
      rfl
    · rw [first.2, behind.2, lengthOf_cons, Nat.add_assoc]

end

/-- Elements that are laid out one behind the other, each with its index and its position: the
position is where those in front of it end. -/
theorem mem_layout_iff {β γ : Type} (make : Nat → Nat → β → γ)
    (layout : Nat → Nat → List β → List γ) {length : β → Nat} {lengthOf : List β → Nat}
    (nil : ∀ index start, layout index start [] = [])
    (cons : ∀ index start element elements, layout index start (element :: elements) =
      make index start element :: layout (index + 1) (start + length element) elements)
    (lengthNil : lengthOf [] = 0)
    (lengthCons : ∀ element elements,
      lengthOf (element :: elements) = length element + lengthOf elements)
    {index start : Nat} {elements : List β} {found : γ} :
    found ∈ layout index start elements ↔
      ∃ front inner behind, elements = front ++ inner :: behind ∧
        found = make (index + front.length) (start + lengthOf front) inner := by
  induction elements generalizing index start with
  | nil => simp [nil]
  | cons element elements ih =>
    have shift (front : List β) :
        make (index + 1 + front.length) (start + length element + lengthOf front) =
          make (index + (element :: front).length) (start + lengthOf (element :: front)) := by
      rw [lengthCons, List.length_cons, Nat.add_assoc, Nat.add_comm 1, Nat.add_assoc]
    rw [cons, List.mem_cons, ih]
    constructor
    · rintro (rfl | ⟨front, inner, behind, rfl, rfl⟩)
      · exact ⟨[], element, elements, rfl, by rw [lengthNil]; rfl⟩
      · exact ⟨element :: front, inner, behind, rfl, by rw [shift]⟩
    · rintro ⟨front, inner, behind, split, rfl⟩
      cases front with
      | nil =>
        obtain ⟨rfl, rfl⟩ := List.cons.inj split
        exact .inl (by rw [lengthNil]; rfl)
      | cons first front =>
        obtain ⟨rfl, rfl⟩ := List.cons.inj split
        exact .inr ⟨front, inner, behind, rfl, by rw [shift]⟩

end Tree

namespace Place

/-- The tokens of an element follow each other from its start on. -/
theorem tokens_eq (place : Place) :
    place.tokens = PlacedToken.sequence place.start place.element.leaves :=
  (Tree.place_eq place.start place.element).1

/-- The children as places are the children of the element, in order. -/
@[simp] theorem map_element_childrenFrom (place : Place) (index start : Nat)
    (children : List (Tree Token)) :
    (place.childrenFrom index start children).map Place.element = children := by
  induction children generalizing index start with
  | nil => rfl
  | cons child children ih => simp [childrenFrom, ih]

end Place

end ServiceAnnotator
