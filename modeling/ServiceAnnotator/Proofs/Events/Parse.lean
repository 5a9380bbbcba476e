import ServiceAnnotator.Proofs.Events.Module
import ServiceAnnotator.Proofs.Grammar.Relabel
import ServiceAnnotator.Proofs.Tree.Assembled

/-!
# Parsing by events is total

Whatever the text is, parsing by events ends without a fault, as long as markers hold any position.
Its tree and its diagnostics are those of the grammar. The tokenizer yields the tokens of the text,
each at its place.
-/

namespace ServiceAnnotator

namespace Events

/-- The tokens of a text, each at its position, and the end of the file behind them. -/
def Source.ofText (text : List Char) : Source where
  tokens := PlacedToken.sequence 0 (TokenStream.scan text).tokens
  stop := ⟨Text.byteLength ((TokenStream.scan text).tokens.flatMap Token.text),
    (TokenStream.scan text).endOfFile⟩
  significant _ found := Tokenizer.kind_ne_endOfFile_of_mem_sequence found
  ends := TokenStream.kind_endOfFile text

theorem Source.placed_ofText (text : List Char) :
    (TokenStream.scan text).placed = (ofText text).tokens ++ [(ofText text).stop] := by
  rw [TokenStream.placed, TokenStream.all, PlacedToken.sequence_append, Nat.zero_add]
  rfl

@[simp] theorem Source.length_tokens_ofText (text : List Char) :
    (Source.ofText text).tokens.length = (TokenStream.scan text).tokens.length :=
  PlacedToken.length_sequence 0 _

/-- A parser stands in front of all tokens of its text at first. -/
theorem stands_ofText (text : List Char) :
    Stands (.ofText text) (.ofText 0 text) (Source.ofText text).tokens := by
  refine ⟨List.suffix_refl _, ?_, rfl⟩
  rw [← Source.placed_ofText]
  exact Tokenizer.yields_ofText text

/-- The token at which the grammar reports a problem is the one that the parser reports it at. -/
theorem Source.diagnose_ofText (text : List Char) (report : Report) :
    (Source.ofText text).diagnose report =
      ⟨.error, report.problem.message, ((TokenStream.scan text).get
        ((TokenStream.scan text).tokens.length - report.ahead)).lexemeSpan⟩ := by
  have inside : (Source.ofText text).tokens.length - report.ahead <
      ((ofText text).tokens ++ [(ofText text).stop]).length := by
    rw [List.length_append]
    exact Nat.lt_succ_of_le (Nat.sub_le ..)
  rw [diagnose, token, TokenStream.get, placed_ofText, ← length_tokens_ofText,
    List.getD_eq_getElem?_getD, List.getD_eq_getElem?_getD, List.getElem?_eq_getElem inside]
  rfl

/-- The grammar reads the tokens with their positions as it reads the tokens alone. -/
theorem items_ofText (text : List Char) :
    Grammar.items (TokenStream.scan text).tokens =
      (Grammar.items (Source.ofText text).tokens).relabel PlacedToken.token := by
  have same := Grammar.items_map (f := PlacedToken.token) (fun _ => rfl) (Source.ofText text).tokens
  rwa [Source.ofText, PlacedToken.map_token_sequence] at same

/-- The tree of a document over the tokens with their positions. -/
def placedTree (text : List Char) : Tree PlacedToken :=
  .node .modulePart ((Grammar.items (Source.ofText text).tokens).elements ++
    [.leaf (Source.ofText text).stop])

theorem map_placedTree (text : List Char) :
    (placedTree text).map PlacedToken.token = (SourceTree.parse text).tree := by
  rw [placedTree, SourceTree.parse, items_ofText]
  simp [Parsed.relabel, Source.ofText]

/-- All tokens of the tree lie in the text. -/
theorem liesIn_placedTree (text : List Char) :
    ∀ placed ∈ (placedTree text).leaves, SourceCall.LiesIn text placed := by
  have leavesEq : (placedTree text).leaves = (TokenStream.scan text).placed := by
    rw [Source.placed_ofText, placedTree]
    simp [Grammar.leavesOf_items]
  have lie := SourceCall.liesIn_sequence [] (TokenStream.scan text).all []
  have covers := TokenStream.text_scan text
  rw [TokenStream.text] at covers
  rw [covers] at lie
  rw [List.nil_append, List.append_nil] at lie
  rw [leavesEq]
  exact lie

/-- The events of a document build its tree. -/
theorem build_eq {text : List Char} {events : List Event}
    (describes : Describes events [placedTree text]) :
    (build text events).run = some (.ok ((SourceTree.parse text).tree.map Token.slice)) := by
  have made := describes.calls_append []
  rw [List.append_nil, calls_nil] at made
  simp only [map_pure, Tree.mapAll_cons, Tree.mapAll_nil, Tree.callsOf, List.append_nil] at made
  have assembled : SourceCall.assemble text ((placedTree text).map PlacedToken.raw).calls =
      .ok ((placedTree text).map fun placed => placed.token.slice) :=
    SourceCall.assemble_calls _ _ (liesIn_placedTree text)
  rw [build, made, pure_bind, assembled, ← map_placedTree, Tree.map_map]
  rfl

/-- A parser reads all of a text without a fault. Its events describe the tree of the document, it
has reported what the grammar reports, and no node is left open. -/
theorem exists_written (text : List Char) :
    ∃ parser, (written 0 text).run = some (.ok parser) ∧ Describes parser.events [placedTree text] ∧
      parser.diagnostics = (SourceTree.parse text).problems ∧ parser.markers = 0 := by
  obtain ⟨_, parser, ended, ⟨events, eventsEq, describes⟩, diagnosticsEq, markersEq⟩ :=
    runs_modulePart (stands_ofText text)
  refine ⟨parser, ?_, ?_, ?_, markersEq⟩
  · rw [written, ExceptT.run_bind, ended]
    rfl
  · exact eventsEq ▸ describes
  · refine diagnosticsEq.trans ?_
    rw [SourceTree.problems, SourceTree.parse, items_ofText]
    exact List.map_congr_left fun report _ => Source.diagnose_ofText text report

/-- Parsing goes on from where the text is read. -/
theorem parseWithin_of_written {positions : Nat} {text : List Char} {parser : Parser}
    (ended : (written positions text).run = some (.ok parser)) (closed : parser.markers = 0) :
    (parseWithin positions text).run =
      (build text parser.events >>= fun tree => pure (tree, parser.diagnostics)).run := by
  rw [parseWithin, ExceptT.run_bind, ended]
  simp only [Option.bind_eq_bind, Option.bind_some]
  rw [if_pos closed]

/-- Parsing by events ends without a fault, with the tree and the problems that the grammar
gives. -/
theorem parse_eq (text : List Char) :
    (parse text).run =
      some (.ok ((SourceTree.parse text).tree.map Token.slice, (SourceTree.parse text).problems)) := by
  obtain ⟨parser, ended, describes, reported, closed⟩ := exists_written text
  rw [parse, parseWithin_of_written ended closed, ExceptT.run_bind, build_eq describes, reported]
  rfl

end Events

/-! ## What the tree holds -/

namespace Slice

/-- Tokens that follow each other from a position on, each with the place that it has there. -/
def placeFrom (start : Nat) :
    List Slice → List (List (PieceKind × Nat) × Kind × Span × List (PieceKind × Nat))
  | [] => []
  | slice :: slices =>
    let stop := start + Text.byteLength slice.text
    (slice.leading, slice.kind, ⟨start + lengthOf slice.leading, stop - lengthOf slice.trailing⟩,
      slice.trailing) :: placeFrom stop slices

/-- Tokens cut out of a text stand in their tree where they stood in the text. -/
theorem placeFrom_map_slice (start : Nat) (tokens : List Token) :
    placeFrom start (tokens.map Token.slice) =
      (PlacedToken.sequence start tokens).map PlacedToken.raw := by
  induction tokens generalizing start with
  | nil => rfl
  | cons token tokens ih =>
    have stop : start + Text.byteLength token.text - token.trailing.byteLength =
        start + token.leading.byteLength + Text.byteLength token.lexeme := by
      simp only [Token.text, Text.byteLength_append, Trivia.byteLength]
      omega
    rw [List.map_cons, placeFrom, PlacedToken.sequence, List.map_cons]
    simp only [Token.slice, lengthOf_map, stop]
    exact congrArg (_ :: ·) (ih _)

end Slice

namespace Tree

/-- The text of a tree of tokens cut out of a text. -/
def sliceText (tree : Tree Slice) : List Char := tree.leaves.flatMap Slice.text

mutual

/-- Number of bytes of a tree: that of its token, or the sum over its children. -/
def sliceLength : Tree Slice → Nat
  | .leaf slice => Text.byteLength slice.text
  | .node _ children => sliceLengthOf children

/-- The sum of the lengths of trees. -/
def sliceLengthOf : List (Tree Slice) → Nat
  | [] => 0
  | tree :: trees => sliceLength tree + sliceLengthOf trees

end

mutual

/-- The length of a tree is the length of its text. -/
theorem sliceLength_eq (tree : Tree Slice) :
    tree.sliceLength = Text.byteLength tree.sliceText := by
  cases tree with
  | leaf slice => simp [sliceLength, sliceText]
  | node kind children =>
    have inside := sliceLengthOf_eq children
    simpa [sliceLength, sliceText] using inside

theorem sliceLengthOf_eq (trees : List (Tree Slice)) :
    sliceLengthOf trees = Text.byteLength ((leavesOf trees).flatMap Slice.text) := by
  cases trees with
  | nil => simp [sliceLengthOf]
  | cons tree trees =>
    have first := sliceLength_eq tree
    have behind := sliceLengthOf_eq trees
    simp [sliceLengthOf, first, behind, sliceText]

end

end Tree

namespace Events

/-- The tokenizer yields the tokens of its text, one at each step. -/
theorem current_after (text : List Char) {steps : Nat} {placed : PlacedToken}
    (found : (TokenStream.scan text).placed[steps]? = some placed) :
    ((Tokenizer.ofText text).after steps).current = placed :=
  (Tokenizer.yields_ofText text).current_after steps found

/-- The tokenizer yields no end of the file before the tokens of its text. -/
theorem kind_after (text : List Char) {steps : Nat}
    (before : steps < (Source.ofText text).tokens.length) :
    ((Tokenizer.ofText text).after steps).kind ≠ .endOfFile := by
  have found : (TokenStream.scan text).placed[steps]? =
      some (Source.ofText text).tokens[steps] := by
    rw [Source.placed_ofText, List.getElem?_append_left before, List.getElem?_eq_getElem before]
  rw [Tokenizer.kind, current_after text found]
  exact (Source.ofText text).significant _ (List.getElem_mem before)

theorem kind_after_length (text : List Char) :
    ((Tokenizer.ofText text).after (Source.ofText text).tokens.length).kind = .endOfFile := by
  have found : (TokenStream.scan text).placed[(Source.ofText text).tokens.length]? =
      some (Source.ofText text).stop := by
    rw [Source.placed_ofText, List.getElem?_append_right (Nat.le_refl _), Nat.sub_self]
    rfl
  rw [Tokenizer.kind, current_after text found]
  exact (Source.ofText text).ends

/-- The first tokens that the tokenizer yields are all tokens of its text. -/
theorem map_range_after (text : List Char) :
    (List.range ((Source.ofText text).tokens.length + 1)).map
        (fun steps => ((Tokenizer.ofText text).after steps).current) =
      (TokenStream.scan text).placed := by
  apply List.ext_getElem
  · rw [List.length_map, List.length_range, Source.length_tokens_ofText, ← Tokenizer.ahead_ofText,
      Tokenizer.length_placed]
  · intro steps _ inside
    rw [List.getElem_map, List.getElem_range]
    exact current_after text (List.getElem?_eq_getElem inside)

end Events

end ServiceAnnotator
