import ServiceAnnotator.Proofs.Tree.Handle
import ServiceAnnotator.Syntax.Fragment

/-!
# Positions are exact

A handle adds up stored lengths on the way down and never looks at the text. Still its spans cut out
of the text of the root what it stands for: with all trivia the text of the element, and without the
trivia at both ends the text of the trimmed element.
-/

namespace ServiceAnnotator

namespace Handle

/-- Whether all that a handle says of its element is right in a tree. -/
structure Positioned (tree : Tree Token) (handle : Handle) : Prop where
  /-- The span cuts out the text of the element. -/
  slice_span :
    Text.slice? handle.span.start handle.span.stop tree.text = some handle.element.text
  /-- The spans of the children tile the span of a node in order. -/
  tile_children :
    handle.element.isNode → Span.Tile handle.span.start (handle.children.map span) handle.span.stop
  /-- The trivia at both ends fits into the span, so the trimmed span is never cut short. -/
  edges_le :
    handle.element.leadingLength + handle.element.trailingLength ≤ handle.span.length
  /-- The trimmed span cuts out the text of the trimmed element. -/
  slice_trimmedSpan :
    Text.slice? handle.trimmedSpan.start handle.trimmedSpan.stop tree.text =
      some handle.element.trimmedText
  /-- The path is empty at the root, and any other path leads to the element. -/
  root_or_found :
    handle = .root tree.measured ∨
      handle.path ≠ [] ∧ tree.measured.elementAt? handle.path = some handle.element
  /-- The first token is the first of all tokens. -/
  first_token : handle.firstToken? = handle.tokens.head?
  /-- The tokens are those of the element. -/
  tokens_eq : handle.tokens.map element = handle.element.tree.leaves.map .leaf
  /-- The tokens stand in the order of the text, without a gap. -/
  tile_tokens : Span.Tile handle.span.start (handle.tokens.map span) handle.span.stop
  /-- Each token is reached from the root as well. -/
  reached_tokens : ∀ token ∈ handle.tokens, token.Reached tree.measured

end Handle

namespace Place

variable {tree : Tree Token} {place : Place} {handle : Handle}

/-- The trivia at both ends of an element fits into its span. -/
theorem Agrees.edges_le (agrees : place.Agrees handle) :
    handle.element.leadingLength + handle.element.trailingLength ≤ handle.span.length := by
  have lengths := place.element.byteLength_eq_trimmedText
  have spanLength : handle.span.length = place.element.byteLength := by
    rw [agrees.span_eq]
    exact Nat.add_sub_cancel_left place.start place.element.byteLength
  rw [spanLength, agrees.element_eq, Measured.leadingLength_measured,
    Measured.trailingLength_measured]
  omega

/-- A place and a handle that agree give the element the same trimmed span. -/
theorem Agrees.trimmedSpan_eq (agrees : place.Agrees handle) :
    handle.trimmedSpan = place.trimmedSpan := by
  have long : ¬ (handle.element.isNode ∧
      handle.span.length < handle.element.leadingLength + handle.element.trailingLength) := by
    intro short
    exact Nat.not_lt.mpr agrees.edges_le short.2
  rw [Handle.trimmedSpan, if_neg long, agrees.span_eq, agrees.element_eq,
    Measured.leadingLength_measured, Measured.trailingLength_measured, Tree.byteLength_leadingText,
    Tree.byteLength_trailingText]
  rfl

/-- The children of a node tile its span. -/
theorem Agrees.tile_children (agrees : place.Agrees handle) (isNode : handle.element.isNode) :
    Span.Tile handle.span.start (handle.children.map Handle.span) handle.span.stop := by
  have tiles := Handle.tile_childrenFrom handle 0 handle.offset handle.element.children
  have stop : handle.span.stop = handle.offset + Measured.lengthOf handle.element.children := by
    rw [agrees.element_eq, Tree.isNode_measured] at isNode
    rw [Handle.span, agrees.element_eq, Tree.children_measured, Tree.lengthOf_map_measured,
      Tree.length_measured]
    cases elementEq : place.element with
    | leaf token =>
      rw [elementEq] at isNode
      cases isNode
    | node kind children =>
      rw [Tree.byteLength_node]
      rfl
  rw [stop]
  exact tiles

theorem Agrees.map_span_tokens (agrees : place.Agrees handle) :
    handle.tokens.map Handle.span = place.tokens.map PlacedToken.span := by
  have spans := congrArg (List.map fun placement => Span.ofLength placement.1 placement.2.length)
    agrees.placement_tokens
  rw [List.map_map, List.map_map] at spans
  exact spans

theorem Agrees.map_element_tokens (agrees : place.Agrees handle) :
    handle.tokens.map Handle.element = place.element.leaves.map .leaf := by
  have elements := congrArg (List.map Prod.snd) agrees.placement_tokens
  rw [List.map_map, List.map_map, tokens_eq] at elements
  refine elements.trans ?_
  rw [← PlacedToken.map_token_sequence place.start place.element.leaves, List.map_map]
  simp

/-- The tokens of an element tile its span. -/
theorem Agrees.tile_tokens (agrees : place.Agrees handle) :
    Span.Tile handle.span.start (handle.tokens.map Handle.span) handle.span.stop := by
  rw [agrees.map_span_tokens, agrees.span_eq, tokens_eq]
  exact PlacedToken.tile_sequence place.start place.element.leaves

/-- The span of a place cuts out the text of its element. -/
theorem Within.slice_span (within : Within tree place) :
    Text.slice? place.span.start place.span.stop tree.text = some place.element.text := by
  obtain ⟨before, after, startEq, textEq⟩ := within.text_eq
  rw [textEq, span, ← startEq]
  exact Text.slice?_append before place.element.text after

/-- The trimmed span of a place cuts out the text of its trimmed element. -/
theorem Within.slice_trimmedSpan (within : Within tree place) :
    Text.slice? place.trimmedSpan.start place.trimmedSpan.stop tree.text =
      some place.element.trimmedText := by
  obtain ⟨before, after, startEq, textEq⟩ := within.text_eq
  have inner : tree.text = (before ++ place.element.leadingText) ++
      (place.element.trimmedText ++ (place.element.trailingText ++ after)) := by
    rw [textEq, place.element.text_eq_trimmedText]
    simp only [List.append_assoc]
  rw [trimmedSpan_eq, ← startEq, ← Text.byteLength_append, inner]
  exact Text.slice?_append _ _ _

/-- The path of a place below the root leads to its element. -/
theorem Within.elementAt?_path (within : Within tree place) (below : place.path ≠ []) :
    tree.elementAt? place.path = some place.element := by
  rw [Tree.elementAt?_eq, if_neg below, within.subtree?_path]

end Place

namespace Handle

/-- Every handle that is reached from the root of a tree says where its element lies, down to the
byte, and agrees with a place that is reached from the root by reading texts. There is no other tree
with right lengths than one made from its leaves up (`Measured.Exact.measured_tree`). -/
theorem positioned_of_reached {tree : Tree Token} {handle : Handle}
    (reached : handle.Reached tree.measured) :
    handle.Positioned tree ∧
      ∃ place, Place.Within tree place ∧ place.Agrees handle ∧ handle.span = place.span ∧
        handle.trimmedSpan = place.trimmedSpan ∧
        handle.tokens.map placement =
          place.tokens.map fun placed => (placed.start, .leaf placed.token) := by
  obtain ⟨place, within, agrees⟩ := Place.exists_agrees reached
  constructor
  · exact {
      slice_span := by
        rw [agrees.span_eq, agrees.element_eq, Tree.text_measured]
        exact within.slice_span
      tile_children := agrees.tile_children
      edges_le := agrees.edges_le
      slice_trimmedSpan := by
        rw [agrees.trimmedSpan_eq, agrees.element_eq, Tree.trimmedText_measured]
        exact within.slice_trimmedSpan
      root_or_found := by
        rcases reached.eq_root_or_path_ne_nil with atRoot | below
        · exact .inl atRoot
        · refine .inr ⟨below, ?_⟩
          rw [agrees.path_eq] at below ⊢
          rw [Measured.elementAt?_measured, within.elementAt?_path below, agrees.element_eq]
          rfl
      first_token := firstTokenOf?_eq handle handle.element
      tokens_eq := by
        rw [agrees.map_element_tokens, agrees.element_eq, Tree.tree_measured]
      tile_tokens := agrees.tile_tokens
      reached_tokens := reached_of_mem_tokensOf reached handle.element rfl }
  · exact ⟨place, within, agrees, agrees.span_eq, agrees.trimmedSpan_eq, agrees.placement_tokens⟩

/-- An empty node, and behind it a word with a blank in front and a line break at the end. -/
theorem positioned_of_reached_word :
    let word : Tree Token := .leaf
      ⟨[⟨.whitespace, [' ']⟩], .identifier, ['é'], [⟨.newline, ['\n']⟩]⟩
    let inner : Tree Token := .node .error [Fragment.token .atSign "@", word]
    let tree : Tree Token := .node .modulePart [.node .metadata [], inner]
    let handle : Handle := .child (.child (.root tree.measured) 1 0 inner.measured) 1 1 word.measured
    handle.path = [1, 1] ∧ handle.trimmedSpan = ⟨2, 4⟩ ∧ handle.Reached tree.measured ∧
      handle.Positioned tree := by
  intro word inner tree handle
  have reached : handle.Reached tree.measured :=
    .child (.child .root (.tail _ (.head _))) (.tail _ (.head _))
  exact ⟨rfl, by decide, reached, (positioned_of_reached reached).1⟩

end Handle

end ServiceAnnotator
