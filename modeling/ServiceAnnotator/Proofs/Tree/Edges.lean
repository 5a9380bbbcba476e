import ServiceAnnotator.Proofs.Syntax.Layout
import ServiceAnnotator.Proofs.Tree.Leaves
import ServiceAnnotator.Proofs.Tree.Subtree

/-!
# The first and the last token

The search for the first or the last leaf comes back from nodes without leaves, and so it finds the
first or the last of all leaves. Trimming takes the trivia off these two tokens, which are the same
one in a tree with a single token.
-/

namespace ServiceAnnotator.Tree

variable {α : Type}

/-! ## Paths -/

mutual

/-- The search for the first leaf fails only where there is none. -/
theorem firstLeafPath?_eq_none_iff (tree : Tree α) :
    tree.firstLeafPath? = none ↔ tree.leaves = [] := by
  cases tree with
  | leaf item => simp [firstLeafPath?]
  | node kind children =>
    rw [firstLeafPath?, leaves_node]
    exact firstLeafPathFrom?_eq_none_iff 0 children

theorem firstLeafPathFrom?_eq_none_iff (index : Nat) (trees : List (Tree α)) :
    firstLeafPathFrom? index trees = none ↔ leavesOf trees = [] := by
  cases trees with
  | nil => simp [firstLeafPathFrom?]
  | cons tree trees =>
    have first := firstLeafPath?_eq_none_iff tree
    have behind := firstLeafPathFrom?_eq_none_iff (index + 1) trees
    rw [firstLeafPathFrom?, leavesOf_cons, List.append_eq_nil_iff, ← first, ← behind]
    cases tree.firstLeafPath? <;> simp

end

mutual

/-- The search for the last leaf fails only where there is none. -/
theorem lastLeafPath?_eq_none_iff (tree : Tree α) :
    tree.lastLeafPath? = none ↔ tree.leaves = [] := by
  cases tree with
  | leaf item => simp [lastLeafPath?]
  | node kind children =>
    rw [lastLeafPath?, leaves_node]
    exact lastLeafPathFrom?_eq_none_iff 0 children

theorem lastLeafPathFrom?_eq_none_iff (index : Nat) (trees : List (Tree α)) :
    lastLeafPathFrom? index trees = none ↔ leavesOf trees = [] := by
  cases trees with
  | nil => simp [lastLeafPathFrom?]
  | cons tree trees =>
    have last := lastLeafPath?_eq_none_iff tree
    have behind := lastLeafPathFrom?_eq_none_iff (index + 1) trees
    rw [lastLeafPathFrom?, leavesOf_cons, List.append_eq_nil_iff, ← last, ← behind]
    cases lastLeafPathFrom? (index + 1) trees <;> simp

end

theorem subtree?_node_length (kind : Kind) (front : List (Tree α)) (tree : Tree α)
    (behind : List (Tree α)) (path : List Nat) :
    (node kind (front ++ tree :: behind)).subtree? (front.length :: path) = tree.subtree? path := by
  simp [subtree?, children]

mutual

/-- The search for the first leaf leads to the first of all leaves. -/
theorem subtree?_firstLeafPath? (tree : Tree α) :
    tree.firstLeafPath?.bind tree.subtree? = tree.firstLeaf?.map leaf := by
  cases tree with
  | leaf item => rfl
  | node kind children =>
    rw [firstLeafPath?, firstLeaf?, leaves_node]
    exact subtree?_firstLeafPathFrom? kind [] children

theorem subtree?_firstLeafPathFrom? (kind : Kind) (front trees : List (Tree α)) :
    (firstLeafPathFrom? front.length trees).bind (node kind (front ++ trees)).subtree? =
      (leavesOf trees).head?.map leaf := by
  cases trees with
  | nil => rfl
  | cons tree trees =>
    have first := subtree?_firstLeafPath? tree
    have behind := subtree?_firstLeafPathFrom? kind (front ++ [tree]) trees
    rw [firstLeafPathFrom?, leavesOf_cons]
    cases found : tree.firstLeafPath? with
    | none =>
      have bare := (firstLeafPath?_eq_none_iff tree).mp found
      simpa [bare] using behind
    | some path =>
      obtain ⟨item, items, leavesEq⟩ : ∃ item items, tree.leaves = item :: items := by
        apply List.exists_cons_of_ne_nil
        intro bare
        rw [(firstLeafPath?_eq_none_iff tree).mpr bare] at found
        cases found
      rw [found, firstLeaf?, leavesEq] at first
      simpa [subtree?_node_length, leavesEq] using first

end

mutual

/-- The search for the last leaf leads to the last of all leaves. -/
theorem subtree?_lastLeafPath? (tree : Tree α) :
    tree.lastLeafPath?.bind tree.subtree? = tree.lastLeaf?.map leaf := by
  cases tree with
  | leaf item => rfl
  | node kind children =>
    rw [lastLeafPath?, lastLeaf?, leaves_node]
    exact subtree?_lastLeafPathFrom? kind [] children

theorem subtree?_lastLeafPathFrom? (kind : Kind) (front trees : List (Tree α)) :
    (lastLeafPathFrom? front.length trees).bind (node kind (front ++ trees)).subtree? =
      (leavesOf trees).getLast?.map leaf := by
  cases trees with
  | nil => rfl
  | cons tree trees =>
    have last := subtree?_lastLeafPath? tree
    have behind := subtree?_lastLeafPathFrom? kind (front ++ [tree]) trees
    rw [List.length_append, List.length_singleton, List.append_assoc, List.singleton_append] at behind
    rw [lastLeafPathFrom?, leavesOf_cons, List.getLast?_append]
    cases found : lastLeafPathFrom? (front.length + 1) trees with
    | none =>
      have bare := (lastLeafPathFrom?_eq_none_iff _ trees).mp found
      rw [bare, List.getLast?_nil, Option.none_or, ← lastLeaf?, ← last, Option.bind_map]
      congr 1
      funext path
      exact subtree?_node_length kind front tree trees path
    | some path =>
      have some : (leavesOf trees).getLast?.isSome := by
        rw [List.getLast?_isSome]
        intro bare
        rw [(lastLeafPathFrom?_eq_none_iff _ trees).mpr bare] at found
        cases found
      rw [found] at behind
      rw [Option.or_of_isSome some]
      exact behind

end

/-- A path that leads to a leaf of a node leads to an element of the node. -/
theorem bind_elementAt?_of_node {kind : Kind} {children : List (Tree α)} {path? : Option (List Nat)}
    {found? : Option α} (leads : path?.bind (node kind children).subtree? = found?.map leaf) :
    (path?.bind fun path => ((node kind children).elementAt? path).bind item?) = found? := by
  cases path? with
  | none =>
    cases found? with
    | none => rfl
    | some item => cases leads
  | some path =>
    have here : (node kind children).subtree? path = found?.map leaf := leads
    rw [Option.bind_some, elementAt?_eq]
    split
    · rename_i atRoot
      subst atRoot
      cases found? <;> cases here
    · rw [here]
      cases found? <;> rfl

/-! ## Trimmed text -/

/-- The text of the trivia in front of the first token. -/
def leadingText (tree : Tree Token) : List Char :=
  (tree.firstLeaf?.map fun token => token.leading.text).getD []

/-- The text of the trivia behind the last token. -/
def trailingText (tree : Tree Token) : List Char :=
  (tree.lastLeaf?.map fun token => token.trailing.text).getD []

theorem leaves_trimmed (tree : Tree Token) :
    tree.trimmed.leaves =
      changeLast Token.withoutTrailing (tree.leaves.modifyHead Token.withoutLeading) := by
  rw [trimmed, leaves_mapLast, leaves_mapFirst]

/-- Trimming takes the trivia at both ends off a text and nothing else. -/
theorem text_eq_trimmedText (tree : Tree Token) :
    tree.text = tree.leadingText ++ (tree.trimmedText ++ tree.trailingText) := by
  rw [trimmedText, text, text, leaves_trimmed, leadingText, trailingText, firstLeaf?, lastLeaf?]
  cases tree.leaves with
  | nil => rfl
  | cons first behind =>
    rcases List.eq_nil_or_concat behind with rfl | ⟨inner, last, rfl⟩
    · -- The first token is the last one, too.
      simp [changeLast, Token.text, Token.withoutLeading, Token.withoutTrailing, Token.withLeading,
        Token.withTrailing]
    · have ends : changeLast Token.withoutTrailing
          (first.withoutLeading :: (inner ++ [last])) =
          first.withoutLeading :: (inner ++ [last.withoutTrailing]) :=
        changeLast_concat Token.withoutTrailing (first.withoutLeading :: inner) last
      have lastEq : (first :: (inner ++ [last])).getLast? = some last :=
        List.getLast?_concat (l := first :: inner)
      rw [List.concat_eq_append, List.modifyHead_cons, ends, lastEq]
      simp [Token.text, Token.withoutLeading, Token.withoutTrailing, Token.withLeading,
        Token.withTrailing]

theorem byteLength_leadingText (tree : Tree Token) :
    Text.byteLength tree.leadingText =
      (tree.firstLeaf?.map fun token => token.leading.byteLength).getD 0 := by
  rw [leadingText]
  cases tree.firstLeaf? <;> rfl

theorem byteLength_trailingText (tree : Tree Token) :
    Text.byteLength tree.trailingText =
      (tree.lastLeaf?.map fun token => token.trailing.byteLength).getD 0 := by
  rw [trailingText]
  cases tree.lastLeaf? <;> rfl

/-- The bytes of a text are those of the trivia at both ends and of the text between them. -/
theorem byteLength_eq_trimmedText (tree : Tree Token) :
    tree.byteLength = Text.byteLength tree.leadingText +
      (Text.byteLength tree.trimmedText + Text.byteLength tree.trailingText) := by
  rw [byteLength, text_eq_trimmedText, Text.byteLength_append, Text.byteLength_append]

end ServiceAnnotator.Tree
