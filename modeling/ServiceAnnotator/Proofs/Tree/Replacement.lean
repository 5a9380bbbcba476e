import ServiceAnnotator.Proofs.Tree.Handle
import ServiceAnnotator.Proofs.Tree.Subtree
import ServiceAnnotator.Syntax.Fragment

/-!
# One replacement, two ways

An element of a tree can be replaced from the root, down along a path, or from a handle, up along
the nodes around it. Both build the same tree, and of the old tree it differs in the one element
alone.
-/

namespace ServiceAnnotator

namespace Measured

/-- The element at a path; the empty path leads to the root itself. -/
def subtree? (element : Measured) (path : List Nat) : Option Measured :=
  if path = [] then some element else element.elementAt? path

theorem subtree?_measured (tree : Tree Token) (path : List Nat) :
    tree.measured.subtree? path = (tree.subtree? path).map Tree.measured := by
  by_cases atRoot : path = []
  · rw [subtree?, if_pos atRoot, atRoot]
    rfl
  · rw [subtree?, if_neg atRoot, elementAt?_measured, Tree.elementAt?_eq, if_neg atRoot]

end Measured

namespace Handle

variable {tree : Tree Token} {handle : Handle}

/-- The path of a handle leads to its element. -/
theorem Reached.subtree?_path (reached : handle.Reached tree.measured) :
    ∃ old, tree.subtree? handle.path = some old ∧ handle.element = old.measured := by
  obtain ⟨place, within, agrees⟩ := Place.exists_agrees reached
  refine ⟨place.element, ?_, agrees.element_eq⟩
  rw [agrees.path_eq]
  exact within.subtree?_path

/-- Going up from a handle puts the new element at its path. -/
theorem Reached.replaceWith_eq (reached : handle.Reached tree.measured) (new : Tree Token) :
    handle.replaceWith new.measured = .ok (tree.put handle.path new).measured := by
  obtain ⟨place, within, agrees⟩ := Place.exists_agrees reached
  rw [agrees.replaceWith_eq, within.replaceWith_eq, agrees.path_eq]

/-- The text behind the span of a handle and in front of it stays as it is. -/
theorem Reached.text_put (reached : handle.Reached tree.measured) (new : Tree Token) :
    ∃ front behind,
      Text.slice? 0 handle.span.start tree.text = some front ∧
        Text.slice? handle.span.stop (Text.byteLength tree.text) tree.text = some behind ∧
        (tree.put handle.path new).text = front ++ new.text ++ behind := by
  obtain ⟨place, within, agrees⟩ := Place.exists_agrees reached
  obtain ⟨front, behind, startEq, textEq⟩ := within.text_put
  have old : tree.text = front ++ (place.element.text ++ behind) := by
    rw [← textEq, Tree.put_self within.subtree?_path]
  obtain ⟨before, after⟩ := Text.slice?_around front place.element.text behind
  rw [← old] at before after
  refine ⟨front, behind, ?_, ?_, ?_⟩
  · rw [agrees.span_eq, Place.span, Span.ofLength, ← startEq]
    exact before
  · rw [agrees.span_eq, Place.span, Span.ofLength, ← startEq]
    exact after
  · rw [agrees.path_eq, textEq, List.append_assoc]

/-- A replacement below an element keeps its kind and the number of its children. -/
theorem shape_put_above {path front : List Nat} {old : Tree Token}
    (found : tree.subtree? path = some old) (above : front <+: path) (proper : front ≠ path)
    (new : Tree Token) :
    ∃ before after, tree.measured.subtree? front = some before ∧
      (tree.put path new).measured.subtree? front = some after ∧ after.kind = before.kind ∧
      after.children.length = before.children.length := by
  obtain ⟨behind, rfl⟩ := above
  cases behind with
  | nil => exact absurd (List.append_nil front).symm proper
  | cons index behind =>
    rw [Tree.subtree?_append, Option.bind_eq_some_iff] at found
    obtain ⟨inner, here, _⟩ := found
    obtain ⟨kindEq, lengthEq⟩ := Tree.shape_put_cons inner index behind new
    refine ⟨inner.measured, (inner.put (index :: behind) new).measured, ?_, ?_, ?_, ?_⟩
    · rw [Measured.subtree?_measured, here]
      rfl
    · rw [Measured.subtree?_measured, Tree.subtree?_put_of_prefix, here]
      rfl
    · rw [Tree.kind_measured, Tree.kind_measured, kindEq]
    · rw [Tree.children_measured, Tree.children_measured, List.length_map, List.length_map, lengthEq]

end Handle

end ServiceAnnotator
