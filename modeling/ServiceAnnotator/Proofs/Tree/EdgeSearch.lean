import ServiceAnnotator.Proofs.Tree.EdgeChange
import ServiceAnnotator.Proofs.Tree.Replacement

/-!
# Search along one path

The search along one path finds what the search by recursion finds, since a child without tokens
leaves the path as it was. A change of the token at that path is a replacement in a tree with stored
lengths, and so it reaches no other element.
-/

namespace ServiceAnnotator

namespace Measured

/-- Whether a search makes its path longer by what is to be found, and leaves the path as it was
where there is nothing. -/
def Finds (search : StateM (List Nat) Bool) (found? : Option (List Nat)) : Prop :=
  ∀ path, search.run path = (found?.isSome, path ++ found?.getD [])

theorem finds_true : Finds (pure true) (some []) := by
  intro path
  rw [Option.getD_some, List.append_nil]
  rfl

theorem finds_false : Finds (pure false) none := by
  intro path
  rw [Option.getD_none, List.append_nil]
  rfl

/-- A second search begins with the path of the first one only if that has found nothing. -/
theorem Finds.or {first second : StateM (List Nat) Bool} {found? other? : Option (List Nat)}
    (finds : Finds first found?) (finds' : Finds second other?) :
    Finds (first <||> second) (found?.or other?) := by
  intro path
  rw [orM, StateT.run_bind, finds path]
  cases found? with
  | none =>
    rw [Option.getD_none, List.append_nil]
    exact finds' path
  | some below => rfl

/-- Within a child the index of the child joins the path. -/
theorem Finds.within {search : StateM (List Nat) Bool} {found? : Option (List Nat)}
    (finds : Finds search found?) (index : Nat) :
    Finds (within index search) (found?.map (index :: ·)) := by
  intro path
  have below := finds (path ++ [index])
  rw [Measured.within, StateT.run_bind, StateT.run_modify, pure_bind, StateT.run_bind, below]
  cases found? with
  | none =>
    -- The index is taken off the path again.
    show (false, (path ++ [index] ++ []).dropLast) = (false, path ++ [])
    rw [List.append_nil, List.append_nil, List.dropLast_concat]
  | some found =>
    show (true, path ++ [index] ++ found) = (true, path ++ index :: found)
    rw [List.append_assoc, List.singleton_append]

mutual

/-- The search along one path finds the path to the leaf at the edge. -/
theorem finds_search (edge : Edge) (tree : Tree Token) :
    Finds (search edge tree.measured) (tree.edgePath? edge) := by
  cases tree with
  | leaf token =>
    rw [Tree.edgePath?_leaf, Tree.measured, search]
    exact finds_true
  | node kind children =>
    rw [Tree.edgePath?_node, Tree.measured, make, search]
    exact finds_searchFrom edge 0 children

theorem finds_searchFrom (edge : Edge) (index : Nat) (trees : List (Tree Token)) :
    Finds (searchFrom edge index (Tree.measuredAll trees)) (Tree.edgePathFrom? edge index trees) := by
  cases trees with
  | nil =>
    rw [Tree.edgePathFrom?_nil, Tree.measuredAll, searchFrom]
    exact finds_false
  | cons tree trees =>
    have here := (finds_search edge tree).within index
    have behind := finds_searchFrom edge (index + 1) trees
    rw [Tree.edgePathFrom?_cons, Tree.measuredAll]
    cases edge with
    | first =>
      rw [searchFrom]
      exact here.or behind
    | last =>
      rw [searchFrom]
      exact behind.or here

end

/-- The path that a search from the root leaves behind leads to the leaf at the edge. -/
theorem edgePath?_measured (edge : Edge) (tree : Tree Token) :
    tree.measured.edgePath? edge = tree.edgePath? edge := by
  rw [Measured.edgePath?, finds_search edge tree []]
  cases tree.edgePath? edge <;> rfl

/-- From either end the search comes back out of nodes without tokens. -/
example (token : Token) :
    let bare : Tree Token := .node .metadata [.node .documentation []]
    let tree := Tree.node .modulePart [bare, .node .serviceDeclaration [bare, .leaf token, bare], bare]
    tree.measured.edgePath? .first = some [1, 1] ∧ tree.measured.edgePath? .last = some [1, 1] :=
  ⟨rfl, rfl⟩

/-! ## What is found -/

/-- Whether a path leads to a token. -/
def IsToken (element : Measured) (path : List Nat) : Prop :=
  ∃ token, element.elementAt? path = some (.leaf token)

/-- What the search for the token at an edge of a tree gives. -/
structure Searches (edge : Edge) (tree : Tree Token) : Prop where
  /-- It finds nothing just where no path leads to a token. -/
  none_iff : tree.measured.edgePath? edge = none ↔ ∀ path, ¬ tree.measured.IsToken path
  /-- It finds the path to a token that comes before the paths to all others. -/
  some_iff : ∀ path, tree.measured.edgePath? edge = some path ↔
    tree.measured.IsToken path ∧
      ∀ other, tree.measured.IsToken other → other ≠ path → edge.Before path other
  /-- The token there is the first or the last one of the text. -/
  token_eq : (tree.measured.edgePath? edge).bind tree.measured.elementAt? =
    (tree.edgeLeaf? edge).map .leaf
  /-- The search by recursion finds the same path. -/
  recursive : tree.measured.edgePath? edge = tree.edgePath? edge

variable {edge : Edge} {kind : Kind} {children : List (Tree Token)} {path : List Nat}

/-- A node itself is no leaf. -/
theorem ne_nil_of_subtree?_eq_leaf {token : Token}
    (leads : (Tree.node kind children).subtree? path = some (.leaf token)) : path ≠ [] := by
  rintro rfl
  cases leads

/-- A path to a leaf of a node leads to an element of the node. -/
theorem elementAt?_measured_eq_leaf_iff {token : Token} :
    (Tree.node kind children).measured.elementAt? path = some (.leaf token) ↔
      (Tree.node kind children).subtree? path = some (.leaf token) := by
  rw [elementAt?_measured, Tree.elementAt?_eq, Option.map_eq_some_iff]
  constructor
  · rintro ⟨found, leads, same⟩
    split at leads
    · cases leads
    · rwa [Tree.measured_injective (same.trans (Tree.measured_leaf token).symm)] at leads
  · intro leads
    rw [if_neg (ne_nil_of_subtree?_eq_leaf leads)]
    exact ⟨_, leads, Tree.measured_leaf token⟩

/-- The path to the token at an edge leads to it. -/
theorem leads_of_edgePath? (found : (Tree.node kind children).edgePath? edge = some path) :
    ∃ token, (Tree.node kind children).edgeLeaf? edge = some token ∧
      (Tree.node kind children).measured.elementAt? path = some (.leaf token) := by
  obtain ⟨token, last, leads⟩ := Tree.subtree?_of_edgePath? found
  exact ⟨token, last, elementAt?_measured_eq_leaf_iff.mpr leads⟩

theorem not_isToken_of_edgePath? (nothing : (Tree.node kind children).edgePath? edge = none) :
    ¬ (Tree.node kind children).measured.IsToken path := by
  rintro ⟨token, leads⟩
  have inside := Tree.mem_leaves_of_subtree? (elementAt?_measured_eq_leaf_iff.mp leads)
  rw [(Tree.edgePath?_eq_none_iff edge _).mp nothing] at inside
  cases inside

theorem before_of_isToken (found : (Tree.node kind children).edgePath? edge = some path)
    {other : List Nat} (isToken : (Tree.node kind children).measured.IsToken other)
    (different : other ≠ path) : edge.Before path other := by
  obtain ⟨token, leads⟩ := isToken
  exact Tree.before_of_edgePath? found (elementAt?_measured_eq_leaf_iff.mp leads) different

theorem searches (edge : Edge) (kind : Kind) (children : List (Tree Token)) :
    Searches edge (.node kind children) where
  none_iff := by
    rw [edgePath?_measured]
    constructor
    · intro nothing path
      exact not_isToken_of_edgePath? nothing
    · intro nothing
      rw [Option.eq_none_iff_forall_ne_some]
      intro path found
      obtain ⟨token, -, leads⟩ := leads_of_edgePath? found
      exact nothing path ⟨token, leads⟩
  some_iff := by
    intro path
    rw [edgePath?_measured]
    constructor
    · intro found
      obtain ⟨token, -, leads⟩ := leads_of_edgePath? found
      exact ⟨⟨token, leads⟩, fun other isToken => before_of_isToken found isToken⟩
    · rintro ⟨isToken, before⟩
      cases found : (Tree.node kind children).edgePath? edge with
      | none => exact absurd isToken (not_isToken_of_edgePath? found)
      | some other =>
        obtain ⟨token, -, leads⟩ := leads_of_edgePath? found
        -- Two paths cannot come before each other.
        by_contra different
        have apart : path ≠ other := fun same => different (congrArg some same.symm)
        exact (before_of_isToken found isToken apart).asymm (before other ⟨token, leads⟩ apart.symm)
  token_eq := by
    rw [edgePath?_measured]
    cases found : (Tree.node kind children).edgePath? edge with
    | none =>
      have leads := Tree.subtree?_edgePath? edge (Tree.node kind children)
      rw [found] at leads
      rw [Option.map_eq_none_iff.mp leads.symm]
      rfl
    | some path =>
      obtain ⟨token, last, leads⟩ := leads_of_edgePath? found
      rw [last]
      exact leads
  recursive := edgePath?_measured edge _

/-! ## What is changed -/

/-- Whether a tree comes from another one by a change of its token at an edge. -/
structure Changes (edge : Edge) (f : Token → Token) (tree : Tree Token) (result : Measured) :
    Prop where
  /-- Without stored lengths the change gives the same tree. -/
  same : result = (tree.mapEdge edge f).measured
  /-- A tree without tokens stays as it is. -/
  bare : tree.measured.edgePath? edge = none → result = tree.measured
  /-- The token at the edge is changed. -/
  changed : ∀ path token, tree.measured.edgePath? edge = some path →
    tree.measured.elementAt? path = some (.leaf token) →
      result.elementAt? path = some (.leaf (f token))
  /-- Every element that does not hold this token is what it was. -/
  unchanged : ∀ path other, tree.measured.edgePath? edge = some path → ¬ other <+: path →
    result.elementAt? other = tree.measured.elementAt? other
  /-- Around the token every node keeps its kind and the number of its children. -/
  around : ∀ path other, tree.measured.edgePath? edge = some path → other <+: path → other ≠ path →
    ∃ before after, tree.measured.subtree? other = some before ∧ result.subtree? other = some after ∧
      after.kind = before.kind ∧ after.children.length = before.children.length
  /-- Of all tokens one is changed. -/
  tokens : result.tree.leaves = Tree.changeEdge edge f tree.leaves
  /-- The form of the tree and the kinds of its nodes stay, whatever the token becomes. -/
  form : (result.tree.map fun _ => ()) = tree.map fun _ => ()
  /-- A change that keeps the kind of a token keeps all kinds. -/
  kinds : (∀ token, (f token).kind = token.kind) → result.tree.outline = tree.outline
  /-- Each node stores the length of its text. -/
  exact : result.Exact

/-- A change at an edge replaces the token there. -/
theorem mapEdge_eq_put_of_edgePath? (found : (Tree.node kind children).edgePath? edge = some path)
    {token : Token} (leads : (Tree.node kind children).measured.elementAt? path = some (.leaf token))
    (f : Token → Token) :
    (Tree.node kind children).mapEdge edge f = (Tree.node kind children).put path (.leaf (f token)) :=
  Tree.mapEdge_eq_put found (elementAt?_measured_eq_leaf_iff.mp leads) f

theorem mapEdge_measured (edge : Edge) (kind : Kind) (children : List (Tree Token))
    (f : Token → Token) :
    (Tree.node kind children).measured.mapEdge edge f =
      .ok ((Tree.node kind children).mapEdge edge f).measured := by
  rw [mapEdge, edgePath?_measured]
  cases found : (Tree.node kind children).edgePath? edge with
  | none => rw [Tree.mapEdge_of_bare ((Tree.edgePath?_eq_none_iff edge _).mp found)]
  | some path =>
    obtain ⟨token, -, leads⟩ := leads_of_edgePath? found
    have here := elementAt?_measured_eq_leaf_iff.mp leads
    have below : path ≠ [] := ne_nil_of_subtree?_eq_leaf here
    simp only [mapTokenAt, leads, mapEdge_eq_put_of_edgePath? found leads f]
    split
    · rename_i same
      rw [same, Tree.put_self here]
    · rw [← Tree.measured_leaf, replaceAt_measured, Tree.replaceAt_of_found below here]
      rfl

theorem changes (edge : Edge) (kind : Kind) (children : List (Tree Token)) (f : Token → Token) :
    Changes edge f (.node kind children) ((Tree.node kind children).mapEdge edge f).measured where
  same := rfl
  bare := by
    rw [edgePath?_measured]
    intro nothing
    rw [Tree.mapEdge_of_bare ((Tree.edgePath?_eq_none_iff edge _).mp nothing)]
  changed := by
    intro path token found leads
    rw [edgePath?_measured] at found
    have here := elementAt?_measured_eq_leaf_iff.mp leads
    rw [mapEdge_eq_put_of_edgePath? found leads, elementAt?_measured, Tree.elementAt?_eq,
      if_neg (ne_nil_of_subtree?_eq_leaf here), Tree.subtree?_put_self here]
    rfl
  unchanged := by
    intro path other found notAround
    rw [edgePath?_measured] at found
    obtain ⟨token, -, leads⟩ := leads_of_edgePath? found
    have here := elementAt?_measured_eq_leaf_iff.mp leads
    rw [mapEdge_eq_put_of_edgePath? found leads, elementAt?_measured, elementAt?_measured,
      Tree.elementAt?_eq, Tree.elementAt?_eq, Tree.subtree?_put_leaf here (f token) notAround]
  around := by
    intro path other found around proper
    rw [edgePath?_measured] at found
    obtain ⟨token, -, leads⟩ := leads_of_edgePath? found
    rw [mapEdge_eq_put_of_edgePath? found leads]
    exact Handle.shape_put_above (elementAt?_measured_eq_leaf_iff.mp leads) around proper _
  tokens := by rw [Tree.tree_measured, Tree.leaves_mapEdge]
  form := by rw [Tree.tree_measured, Tree.map_mapEdge edge f fun _ => rfl]
  kinds := by
    intro same
    rw [Tree.tree_measured]
    exact Tree.map_mapEdge edge f same _
  exact := exact_measured _

end Measured

end ServiceAnnotator
