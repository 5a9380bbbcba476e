import ServiceAnnotator.Proofs.Tree.Assembled
import ServiceAnnotator.Proofs.Tree.EdgeSearch
import ServiceAnnotator.Proofs.Tree.FirstLeaf

/-!
# Trimming

Trimming is two changes at the edges of a tree, the second one of what the first one gives. It takes
the trivia off both ends and nothing else, also where the first token is the last one, and a trimmed
tree stays as it is.
-/

namespace ServiceAnnotator

namespace Tree

/-! ## Trimmed trees -/

/-- Trimming leaves of each token what is not trivia at one of the two ends. -/
theorem getElem?_leaves_trimmed (tree : Tree Token) (index : Nat) :
    tree.trimmed.leaves[index]? = tree.leaves[index]?.map fun token =>
      { token with
        leading := if index = 0 then [] else token.leading
        trailing := if index + 1 = tree.leaves.length then [] else token.trailing } := by
  rw [leaves_trimmed, getElem?_changeLast, List.getElem?_modifyHead, List.length_modifyHead]
  cases tree.leaves[index]? with
  | none => simp
  | some token => split <;> split <;> rfl

/-- Trimming keeps the form of a tree and the kinds of its tokens. -/
theorem outline_trimmed (tree : Tree Token) : tree.trimmed.outline = tree.outline := by
  have first : (tree.mapFirst Token.withoutLeading).outline = tree.outline :=
    map_mapEdge .first Token.withoutLeading (fun _ => rfl) tree
  have last : tree.trimmed.outline = (tree.mapFirst Token.withoutLeading).outline :=
    map_mapEdge .last Token.withoutTrailing (fun _ => rfl) _
  exact last.trans first

theorem exists_trimmed_node (kind : Kind) (children : List (Tree Token)) :
    ∃ edits, (node kind children).trimmed = node kind edits := by
  obtain ⟨bare, shape⟩ := exists_mapEdge_node .first Token.withoutLeading kind children
  obtain ⟨edits, last⟩ := exists_mapEdge_node .last Token.withoutTrailing kind bare
  rw [← shape] at last
  exact ⟨edits, last⟩

/-- A trimmed tree has no trivia at its ends that could be taken off. -/
theorem trimmed_trimmed (tree : Tree Token) : tree.trimmed.trimmed = tree.trimmed := by
  apply eq_of_map (g := Kinded.kind)
  · exact outline_trimmed tree.trimmed
  · apply List.ext_getElem?
    intro index
    have lengthEq : tree.trimmed.leaves.length = tree.leaves.length := by
      have same := congrArg (fun tree => tree.leaves.length) (outline_trimmed tree)
      simpa [outline] using same
    rw [getElem?_leaves_trimmed, getElem?_leaves_trimmed, lengthEq, Option.map_map]
    congr 1
    funext token
    have twice (dropped : Prop) [Decidable dropped] (pieces : Trivia) :
        (if dropped then [] else if dropped then [] else pieces) = if dropped then [] else pieces := by
      by_cases dropped <;> simp [*]
    simp only [Function.comp, twice]

end Tree

/-! ## Trivia cut off a token -/

namespace Slice

/-- The text of a token is cut at the lengths of its trivia. -/
theorem parts?_slice (token : Token) :
    token.slice.parts? = some (token.leading.text, token.lexeme, token.trailing.text) := by
  have textEq : token.text = token.leading.text ++ (token.lexeme ++ token.trailing.text) := by
    rw [Token.text, List.append_assoc]
  have stopEq : Text.byteLength token.text - Text.byteLength token.trailing.text =
      Text.byteLength token.leading.text + Text.byteLength token.lexeme := by
    rw [textEq, Text.byteLength_append, Text.byteLength_append, ← Nat.add_assoc, Nat.add_sub_cancel]
  obtain ⟨front, behind⟩ := Text.slice?_around token.leading.text token.lexeme token.trailing.text
  have inner := Text.slice?_append token.leading.text token.lexeme token.trailing.text
  rw [← textEq] at front behind inner
  simp only [parts?, Token.slice, lengthOf_map, Trivia.byteLength, stopEq, inner, front, behind]
  rfl

theorem withoutLeading?_slice (token : Token) :
    token.slice.withoutLeading? = some token.withoutLeading.slice := by
  rw [withoutLeading?, parts?_slice]
  split
  · rename_i none
    have bare : token.leading = [] := List.map_eq_nil_iff.mp none
    rw [Token.withoutLeading, ← bare, Token.withLeading_leading]
  · rfl

theorem withoutTrailing?_slice (token : Token) :
    token.slice.withoutTrailing? = some token.withoutTrailing.slice := by
  rw [withoutTrailing?, parts?_slice]
  split
  · rename_i none
    have bare : token.trailing = [] := List.map_eq_nil_iff.mp none
    rw [Token.withoutTrailing, ← bare, Token.withTrailing_trailing]
  · simp [Token.slice, Token.withoutTrailing, Token.withTrailing, Token.text]

end Slice

/-! ## Trimming with stored lengths -/

namespace Measured

/-- Whether a tree comes from another one by trimming. -/
structure Trims (tree : Tree Token) (result : Measured) : Prop where
  /-- Without stored lengths trimming gives the same tree. -/
  same : result = tree.trimmed.measured
  /-- The form of the tree and all kinds stay. -/
  shape : result.tree.outline = tree.outline
  /-- Of the tokens the first one has lost its leading and the last one its trailing trivia. -/
  tokens : ∀ index : Nat, result.tree.leaves[index]? = tree.leaves[index]?.map fun token =>
    { token with
      leading := if index = 0 then [] else token.leading
      trailing := if index + 1 = tree.leaves.length then [] else token.trailing }
  /-- The text has lost what stood in front of the first and behind the last of these tokens. -/
  text : tree.text = tree.leadingText ++ (result.text ++ tree.trailingText)
  /-- The trimmed text of the tree is this text. -/
  trimmedText : tree.measured.trimmedText = result.text
  /-- Trimming again changes nothing. -/
  again : result.trimmed = .ok result
  /-- Each node stores the length of its text. -/
  exact : result.Exact

theorem trimmed_measured (kind : Kind) (children : List (Tree Token)) :
    (Tree.node kind children).measured.trimmed = .ok (Tree.node kind children).trimmed.measured := by
  obtain ⟨edits, shape⟩ := Tree.exists_mapEdge_node .first Token.withoutLeading kind children
  have last := mapEdge_measured .last kind edits Token.withoutTrailing
  rw [← shape] at last
  rw [trimmed, mapEdge_measured]
  exact last

theorem trims (kind : Kind) (children : List (Tree Token)) :
    Trims (.node kind children) (Tree.node kind children).trimmed.measured where
  same := rfl
  shape := by rw [Tree.tree_measured, Tree.outline_trimmed]
  tokens := by
    rw [Tree.tree_measured]
    exact Tree.getElem?_leaves_trimmed _
  text := by
    rw [Tree.text_measured]
    exact Tree.text_eq_trimmedText _
  trimmedText := by
    rw [Tree.trimmedText_measured, Tree.text_measured]
    rfl
  again := by
    obtain ⟨edits, shape⟩ := Tree.exists_trimmed_node kind children
    have twice := Tree.trimmed_trimmed (.node kind children)
    rw [shape] at twice ⊢
    rw [trimmed_measured, twice]
  exact := exact_measured _

/-- The search for an edge token finds the first or the last token in pre-order, a change there
changes this token alone, and trimming takes the trivia off both ends and nothing else. -/
theorem edges_of_node (kind : Kind) (children : List (Tree Token)) :
    (∀ edge, Searches edge (.node kind children)) ∧
    (∀ edge f, ∃ result, (Tree.node kind children).measured.mapEdge edge f = .ok result ∧
      Changes edge f (.node kind children) result) ∧
    (∃ result, (Tree.node kind children).measured.trimmed = .ok result ∧
      Trims (.node kind children) result) ∧
    ∀ token : Token, token.slice.withoutLeading? = some token.withoutLeading.slice ∧
      token.slice.withoutTrailing? = some token.withoutTrailing.slice := by
  refine ⟨fun edge => searches edge kind children, ?_, ?_, ?_⟩
  · intro edge f
    exact ⟨_, mapEdge_measured edge kind children f, changes edge kind children f⟩
  · exact ⟨_, trimmed_measured kind children, trims kind children⟩
  · intro token
    exact ⟨Slice.withoutLeading?_slice token, Slice.withoutTrailing?_slice token⟩

end Measured

end ServiceAnnotator
