import ServiceAnnotator.Proofs.Events.Overflow.Parse
import ServiceAnnotator.Proofs.Scan.Reading

/-!
# Parsing loses nothing as long as markers hold

With markers of 32 bits a text is parsed to a tree that loses nothing if all nodes open among the
first 2 ^ 32 events. The first node that opens behind them stops the parser, whatever the text is.
-/

namespace ServiceAnnotator

namespace Events

variable {events : List Event} {positions count : Nat}

/-! ## Semicolons alone -/

/-- A semicolon without trivia. -/
def semicolon : Token := ⟨[], .semicolon, [';'], []⟩

theorem piece?_semicolons (count : Nat) : Scan.piece? (List.replicate count ';') = none := by
  cases count <;> rfl

theorem reads_semicolon (count : Nat) : semicolon.Reads (List.replicate count ';') := by
  refine ⟨List.cons_ne_nil _ _, ?_, ?_, ?_⟩
  · exact piece?_semicolons (count + 1)
  · rintro first rest ⟨⟩
    rfl
  · exact piece?_semicolons count

theorem tokens_semicolons (count : Nat) :
    (TokenStream.scan (List.replicate count ';')).tokens = List.replicate count semicolon := by
  induction count with
  | zero =>
    have nothing : TokenStream.scan (Trivia.text []) = _ := TokenStream.scan_of_leads rfl
    exact congrArg TokenStream.tokens nothing
  | succ count ih =>
    have read := TokenStream.scan_of_reads (reads_semicolon count)
    have split : semicolon.text ++ List.replicate count ';' = List.replicate (count + 1) ';' := rfl
    rw [split] at read
    rw [read, List.replicate_succ, ← ih]

/-- A token that is skipped. -/
def skipped {α : Type} (item : α) : Tree α := .node .error [.leaf item]

/-- Semicolons outside all declarations are skipped one by one. -/
theorem elements_semicolons {α : Type} [Kinded α] {tokens : List α}
    (alike : ∀ token ∈ tokens, Kinded.kind token = .semicolon) :
    (Grammar.items tokens).elements = tokens.map skipped := by
  induction tokens with
  | nil => rw [Grammar.items]; rfl
  | cons first rest ih =>
    have isSemicolon := alike first (.head _)
    rw [Grammar.items_cons, isSemicolon, if_neg (by decide), if_neg (by decide)]
    exact congrArg (skipped first :: ·) (ih fun token found => alike token (.tail _ found))

/-- The events of tokens that are skipped. -/
def skips (tokens : List PlacedToken) : List Event :=
  tokens.flatMap fun placed => [.start .error none, .token placed, .finish]

theorem Describes.split_skipped {tokens : List PlacedToken} {trees : List (Tree PlacedToken)}
    (describes : Describes events (tokens.map skipped ++ trees)) :
    ∃ behind, events = skips tokens ++ behind ∧ Describes behind trees := by
  induction tokens generalizing events with
  | nil => exact ⟨events, rfl, describes⟩
  | cons first rest ih =>
    cases describes with
    | node real inside behind =>
      cases inside with
      | token _ last =>
        obtain rfl := last.eq_nil
        obtain ⟨more, rfl, describesMore⟩ := ih behind
        exact ⟨more, rfl, describesMore⟩

theorem startsAt_skips {index : Nat} {tokens : List PlacedToken} (inside : index < tokens.length)
    (behind : List Event) : StartsAt (skips tokens ++ behind) (3 * index) := by
  induction tokens generalizing index with
  | nil => cases inside
  | cons first rest ih =>
    cases index with
    | zero => exact ⟨.error, none, rfl⟩
    | succ index =>
      obtain ⟨kind, parent?, found⟩ := ih (Nat.lt_of_succ_lt_succ inside)
      exact ⟨kind, parent?, found⟩

/-- The last of some semicolons is skipped behind three events for each of the others. -/
theorem startsAt_semicolons {tokens : List PlacedToken} {stop : PlacedToken}
    (several : 2 ≤ tokens.length)
    (describes : Describes events [.node .modulePart (tokens.map skipped ++ [.leaf stop])]) :
    StartsAt events (3 * tokens.length - 2) := by
  generalize childrenEq : tokens.map skipped ++ [.leaf stop] = children at describes
  -- Events may describe a node that opens behind its first child. Then the last one opens later.
  cases describes with
  | node real inside behind =>
    subst childrenEq
    obtain ⟨more, rfl, _⟩ := inside.split_skipped
    have last : tokens.length - 1 < tokens.length := by omega
    obtain ⟨kind, parent?, found⟩ := startsAt_skips last (more ++ .finish :: _)
    refine ⟨kind, parent?, ?_⟩
    have index : 3 * tokens.length - 2 = 3 * (tokens.length - 1) + 1 := by omega
    rw [index, List.getElem?_cons_succ, List.append_assoc, found]
  | preceded firstReal real before inside behind =>
    cases tokens with
    | nil => cases several
    | cons first rest =>
      cases childrenEq
      cases before with
      | token _ nothing =>
        obtain rfl := nothing.eq_nil
        obtain ⟨more, rfl, _⟩ := inside.split_skipped
        have last : rest.length - 1 < rest.length := by
          rw [List.length_cons] at several
          omega
        obtain ⟨kind, parent?, found⟩ := startsAt_skips last (more ++ .finish :: _)
        refine ⟨kind, parent?, ?_⟩
        have index : 3 * (first :: rest).length - 2 = 3 * (rest.length - 1) + 1 + 1 + 1 + 1 := by
          rw [List.length_cons]
          omega
        rw [index, List.append_assoc]
        exact found

/-- A text of many semicolons opens a node behind the first events. -/
theorem not_opensWithin_semicolons {parser : Parser} (several : 2 ≤ count)
    (many : positions + 2 ≤ 3 * count)
    (ended : (written 0 (List.replicate count ';')).run = some (.ok parser)) :
    ¬OpensWithin positions parser.events := by
  obtain ⟨_, known, describes, -, -⟩ := exists_written (List.replicate count ';')
  obtain rfl := Except.ok.inj (Option.some.inj (ended.symm.trans known))
  have alike : ∀ placed ∈ (Source.ofText (List.replicate count ';')).tokens,
      Kinded.kind placed = .semicolon := by
    intro placed found
    have scanned := List.mem_map_of_mem (f := PlacedToken.token) found
    rw [Source.ofText, PlacedToken.map_token_sequence, tokens_semicolons] at scanned
    exact congrArg Token.kind (List.eq_of_mem_replicate scanned)
  have lengthEq : (Source.ofText (List.replicate count ';')).tokens.length = count := by
    rw [Source.length_tokens_ofText, tokens_semicolons, List.length_replicate]
  rw [placedTree, elements_semicolons alike] at describes
  have starts := startsAt_semicolons (lengthEq.symm ▸ several) describes
  rw [lengthEq] at starts
  intro within
  have below := within.lt starts
  omega

theorem byteLength_semicolons (count : Nat) :
    Text.byteLength (List.replicate count ';') = count := by
  induction count with
  | zero => rfl
  | succ count ih => rw [List.replicate_succ, Text.byteLength_cons, ih, Nat.add_comm]; rfl

/-! ## Any text -/

/-- With markers of 32 bits a text is parsed without a fault if and only if all its nodes open among
the first 2 ^ 32 events that are written down for it. The tree is then that of markers that hold any
position. The text of the tree is the text, and so is its length. The tokens of the tree are those
that the tokenizer yields up to the first end of the file, each once and in order, of the same kind,
in the same place and with the same trivia. -/
theorem parse32_lossless (text : List Char) :
    ∃ parser tree count,
      (written 0 text).run = some (.ok parser) ∧
      (OpensWithin UInt32.size parser.events →
        (parse32 text).run = some (.ok (tree, (SourceTree.parse text).problems))) ∧
      (¬OpensWithin UInt32.size parser.events → ∃ fault, (parse32 text).run = some (.error fault)) ∧
      (parse text).run = some (.ok (tree, (SourceTree.parse text).problems)) ∧
      tree = (SourceTree.parse text).tree.map Token.slice ∧
      tree.sliceText = text ∧
      tree.sliceLength = Text.byteLength text ∧
      (∀ steps < count, ((Tokenizer.ofText text).after steps).kind ≠ .endOfFile) ∧
      ((Tokenizer.ofText text).after count).kind = .endOfFile ∧
      Slice.placeFrom 0 tree.leaves = (List.range (count + 1)).map
        fun steps => ((Tokenizer.ofText text).after steps).current.raw := by
  obtain ⟨parser, ended, -⟩ := exists_written text
  have parsed := parse_eq text
  have some : 0 < UInt32.size := by decide
  obtain ⟨fits, overflows⟩ := parseWithin_cases some ended
  rw [parsed] at fits
  have leavesEq : ((SourceTree.parse text).tree.map Token.slice).leaves =
      (TokenStream.scan text).all.map Token.slice := by
    rw [Tree.leaves_map, SourceTree.leaves_parse]
  have textEq : ((SourceTree.parse text).tree.map Token.slice).sliceText = text := by
    rw [Tree.sliceText, leavesEq, List.flatMap_map]
    exact TokenStream.text_scan text
  refine ⟨parser, _, (Source.ofText text).tokens.length, ended, fits, overflows, parsed, rfl,
    textEq, ?_, ?_, ?_, ?_⟩
  · rw [Tree.sliceLength_eq, textEq]
  · exact fun _ before => kind_after text before
  · exact kind_after_length text
  · rw [leavesEq, Slice.placeFrom_map_slice, ← TokenStream.placed, ← map_range_after, List.map_map]
    rfl

/-- A text shorter than 2 ^ 32 bytes for which markers of 32 bits are too small. -/
theorem parse32_semicolons :
    Text.byteLength (List.replicate 1431655767 ';') < UInt32.size ∧
      ∃ fault, (parse32 (List.replicate 1431655767 ';')).run = some (.error fault) := by
  obtain ⟨parser, ended, -⟩ := exists_written (List.replicate 1431655767 ';')
  have some : 0 < UInt32.size := by decide
  rw [byteLength_semicolons]
  exact ⟨by decide, (parseWithin_cases some ended).2
    (not_opensWithin_semicolons (by decide) (by decide) ended)⟩

end Events

end ServiceAnnotator
