import ServiceAnnotator.Syntax.Tree.Measured

/-!
# Handles

A handle is an element of a tree with stored lengths, together with its position and a handle for
the node around it. Handles are made on the way down from the root: a child starts where the lengths
of the children in front of it end.
-/

namespace ServiceAnnotator

/-- The root of a tree, or a child: its index among the children of a node, its position and
itself. -/
inductive Handle where
  | root (element : Measured)
  | child (parent : Handle) (index offset : Nat) (element : Measured)
  deriving Repr, Inhabited

namespace Handle

/-- The element itself. -/
def element : Handle → Measured
  | .root element => element
  | .child _ _ _ element => element

/-- The position of the first byte of the element. -/
def offset : Handle → Nat
  | .root _ => 0
  | .child _ _ offset _ => offset

/-- The node around the element. -/
def parent? : Handle → Option Handle
  | .root _ => none
  | .child parent _ _ _ => some parent

/-- The position among the children of the node around it; the root counts as the first. -/
def index : Handle → Nat
  | .root _ => 0
  | .child _ index _ _ => index

/-- The element and all nodes around it, up to the root. -/
def ancestors : Handle → List Handle
  | .root element => [.root element]
  | .child parent index offset element => .child parent index offset element :: ancestors parent

/-- The child indices that lead from the root to the element. -/
def path (handle : Handle) : List Nat :=
  ((handle.ancestors.filter fun handle => handle.parent?.isSome).map index).reverse

/-- The span of the element, trivia included. -/
def span (handle : Handle) : Span := .ofLength handle.offset handle.element.length

/-- The span without the trivia in front of the first token and behind the last one. It is empty for
a node that is shorter than this trivia. -/
def trimmedSpan (handle : Handle) : Span :=
  let leading := handle.element.leadingLength
  let trailing := handle.element.trailingLength
  if handle.element.isNode ∧ handle.span.length < leading + trailing then .empty handle.span.start
  else ⟨handle.span.start + leading, handle.span.stop - trailing⟩

/-- The children of an element from an index on, of which the first one starts at a position. -/
def childrenFrom (parent : Handle) (index offset : Nat) : List Measured → List Handle
  | [] => []
  | element :: elements =>
    .child parent index offset element ::
      childrenFrom parent (index + 1) (offset + element.length) elements

/-- The children of an element, tokens included. -/
def children (handle : Handle) : List Handle :=
  handle.childrenFrom 0 handle.offset handle.element.children

mutual

/-- The first token of an element. -/
def firstTokenOf? (handle : Handle) : Measured → Option Handle
  | .leaf _ => some handle
  | .node _ _ elements => firstTokenFrom? handle 0 handle.offset elements

/-- The first token of the children of an element from an index on. -/
def firstTokenFrom? (parent : Handle) (index offset : Nat) : List Measured → Option Handle
  | [] => none
  | element :: elements =>
    match firstTokenOf? (.child parent index offset element) element with
    | some token => some token
    | none => firstTokenFrom? parent (index + 1) (offset + element.length) elements

end

/-- The first token below an element. -/
def firstToken? (handle : Handle) : Option Handle := firstTokenOf? handle handle.element

mutual

/-- All tokens of an element in order. -/
def tokensOf (handle : Handle) : Measured → List Handle
  | .leaf _ => [handle]
  | .node _ _ elements => tokensFrom handle 0 handle.offset elements

/-- All tokens of the children of an element from an index on. -/
def tokensFrom (parent : Handle) (index offset : Nat) : List Measured → List Handle
  | [] => []
  | element :: elements =>
    tokensOf (.child parent index offset element) element ++
      tokensFrom parent (index + 1) (offset + element.length) elements

end

/-- All tokens below an element in order. -/
def tokens (handle : Handle) : List Handle := tokensOf handle handle.element

/-- The root with another element in this place: every node around the place is made anew, from the
innermost one up. -/
def replaceWith : Handle → Measured → Except EditError Measured
  | .root _, replacement => .ok replacement
  | .child parent index _ _, replacement => do
    let edited ← parent.element.replaceChild index replacement
    parent.replaceWith edited

end Handle

end ServiceAnnotator
