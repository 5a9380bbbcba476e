import ServiceAnnotator.Syntax.Tree.Assembly

/-!
# A tree built without a tree

While a tree is built from calls, its finished elements stand in one flat list. For an open node
only the place is kept at which its children begin in that list. When the node is closed, all
elements from that place on are taken off the list, and the node stands there in their stead.
-/

namespace ServiceAnnotator

/-- A tree of tokens cut out of a text, each node of which stores a length. -/
inductive SliceTree where
  | leaf (slice : Slice)
  | node (kind : Kind) (length : Nat) (children : List SliceTree)
  deriving Repr

namespace SliceTree

/-- The length of a token, or the length that a node stores. -/
def length : SliceTree → Nat
  | .leaf slice => Text.byteLength slice.text
  | .node _ length _ => length

/-- The sum of the lengths of elements. -/
def lengthOf : List SliceTree → Nat
  | [] => 0
  | element :: elements => element.length + lengthOf elements

/-- A node of the given children. -/
def make (kind : Kind) (children : List SliceTree) : SliceTree :=
  .node kind (lengthOf children) children

mutual

/-- The tree without the lengths. -/
def tree : SliceTree → Tree Slice
  | .leaf slice => .leaf slice
  | .node kind _ children => .node kind (trees children)

/-- `SliceTree.tree` for each element of a list. -/
def trees : List SliceTree → List (Tree Slice)
  | [] => []
  | element :: elements => tree element :: trees elements

end

end SliceTree

/-- A tree in the making: the open nodes, the innermost first, each with the number of elements in
front of its children; and the finished elements that have no parent yet, the first one first. -/
structure Builder where
  parents : List (Kind × Nat)
  elements : List SliceTree
  /-- The children of a node begin within the list, and not before the node itself. -/
  nested : (elements.length :: parents.map Prod.snd).Pairwise (· ≥ ·)

namespace Builder

/-- Nothing built yet. -/
def empty : Builder := ⟨[], [], List.pairwise_singleton ..⟩

/-- A node is opened. -/
def startNode (builder : Builder) (kind : Kind) : Builder where
  parents := (kind, builder.elements.length) :: builder.parents
  elements := builder.elements
  nested := by
    refine List.pairwise_cons.mpr ⟨?_, builder.nested⟩
    intro start inside
    cases inside with
    | head => exact Nat.le_refl _
    | tail _ outer => exact List.rel_of_pairwise_cons builder.nested outer

/-- A token is added. -/
def token (builder : Builder) (slice : Slice) : Builder where
  parents := builder.parents
  elements := builder.elements ++ [.leaf slice]
  nested := by
    obtain ⟨bounded, ordered⟩ := List.pairwise_cons.mp builder.nested
    refine List.pairwise_cons.mpr ⟨?_, ordered⟩
    intro start inside
    rw [List.length_append]
    exact Nat.le_add_right_of_le (bounded start inside)

/-- The innermost open node is closed. -/
def finishNode (builder : Builder) : Except AssemblyError Builder :=
  match found : builder.parents with
  | [] => .error .unbalancedFinish
  | (kind, first) :: parents => .ok
    { parents
      elements := builder.elements.take first ++ [.make kind (builder.elements.drop first)]
      nested := by
        have nested := builder.nested
        rw [found, List.map_cons] at nested
        obtain ⟨bounded, ordered⟩ := List.pairwise_cons.mp nested
        obtain ⟨outer, ordered⟩ := List.pairwise_cons.mp ordered
        have inside : first ≤ builder.elements.length := bounded first List.mem_cons_self
        refine List.pairwise_cons.mpr ⟨?_, ordered⟩
        intro start isOuter
        rw [List.length_append, List.length_take, Nat.min_eq_left inside]
        exact Nat.le_add_right_of_le (outer start isOuter) }

/-- The tree at the end of all calls. -/
def finish (builder : Builder) : Except AssemblyError SliceTree :=
  if builder.parents ≠ [] then .error .unfinishedNodes
  else
    match builder.elements with
    | [.node kind length children] => .ok (.node kind length children)
    | [.leaf _] => .error .rootIsToken
    | _ => .error .notSingleRoot

/-- Building over a text goes on by one call. -/
def step (cs : List Char) (builder : Builder) : SourceCall → Except AssemblyError Builder
  | .start kind => .ok (builder.startNode kind)
  | .token (leading, kind, lexeme, trailing) =>
    match Slice.cut? cs leading kind lexeme trailing with
    | some slice => .ok (builder.token slice)
    | none => .error .outsideText
  | .finish => builder.finishNode

/-- Builds the tree that calls describe over a text; the first call that fails decides. -/
def run (cs : List Char) (calls : List SourceCall) : Except AssemblyError SliceTree := do
  let builder ← calls.foldlM (step cs) empty
  builder.finish

end Builder

end ServiceAnnotator
