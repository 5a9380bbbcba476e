import ServiceAnnotator.Proofs.Attachment.Clean
import ServiceAnnotator.Proofs.Attachment.Indent
import ServiceAnnotator.Proofs.Attachment.Reference
import ServiceAnnotator.Proofs.Events.Outline
import ServiceAnnotator.Proofs.Grammar.Concatenation

/-!
# Documents one behind the other

Two documents without problems, of which the first ends with a line feed, can be put together. The
declarations of each are read as they are read alone, and the pass does to them what it does alone.
Only the trivia at the end of the first document moves to the first token of the second one.
-/

namespace ServiceAnnotator

/-! ## Trees behind more trivia -/

namespace SourceTree

/-- What is read off a stream of tokens. -/
def ofStream (stream : TokenStream) : SourceTree :=
  { tree := .node .modulePart ((Grammar.items stream.tokens).elements ++ [.leaf stream.endOfFile])
    stream
    reports := (Grammar.items stream.tokens).reports }

theorem parse_eq_ofStream (text : List Char) : parse text = ofStream (.scan text) := rfl

theorem leaves_ofStream (stream : TokenStream) : (ofStream stream).tree.leaves = stream.all := by
  simp [ofStream, Grammar.leavesOf_items, TokenStream.all]

theorem map_kind_tokens_indent (pieces : Trivia) (stream : TokenStream) :
    (stream.indent pieces).tokens.map Kinded.kind = stream.tokens.map Kinded.kind := by
  obtain ⟨tokens, endOfFile⟩ := stream
  cases tokens <;> rfl

/-- More trivia goes to the first token of a tree. -/
theorem tree_ofStream_indent (pieces : Trivia) (stream : TokenStream) :
    (ofStream (stream.indent pieces)).tree =
      (ofStream stream).tree.mapFirst (Token.indent pieces) := by
  have stops : Kinded.kind (stream.indent pieces).endOfFile = Kinded.kind stream.endOfFile := by
    obtain ⟨tokens, endOfFile⟩ := stream
    cases tokens <;> rfl
  have form := (Grammar.items_of_kinds (map_kind_tokens_indent pieces stream)).1
  apply Tree.eq_of_map (g := Kinded.kind)
  · rw [Tree.map_mapFirst (Token.kind_indent pieces)]
    simp only [ofStream, Tree.map_node, Tree.mapAll_append, form, Tree.mapAll_cons, Tree.map_leaf,
      Tree.mapAll_nil, stops]
  · rw [Tree.leaves_mapFirst, leaves_ofStream, leaves_ofStream, TokenStream.all_indent]

theorem reports_ofStream_indent (pieces : Trivia) (stream : TokenStream) :
    (ofStream (stream.indent pieces)).reports = (ofStream stream).reports :=
  (Grammar.items_of_kinds (map_kind_tokens_indent pieces stream)).2

/-! ## Trees one behind the other -/

theorem problems_eq_nil_iff (source : SourceTree) : source.problems = [] ↔ source.reports = [] :=
  List.map_eq_nil_iff

/-- The items of two documents stand one behind the other in their concatenation. -/
theorem parse_append {text other : List Char} (clean : (parse text).reports = [])
    (terminated : Scan.Terminated text) (cleanOther : (parse other).reports = []) :
    (parse (text ++ other)).reports = [] ∧
      (parse (text ++ other)).tree = .node .modulePart
        ((Grammar.items (TokenStream.scan text).tokens).elements ++
          ((parse other).tree.mapFirst
            (Token.indent (TokenStream.scan text).endOfFile.leading)).children) := by
  have isMark : ∀ kind, Phrase.ClosesItem kind → kind ∈ Scan.punctuation.map Prod.snd := by
    rintro _ (rfl | rfl) <;> decide
  have closes : ∀ last ∈ (TokenStream.scan text).tokens.getLast?,
      last.kind ∈ Scan.punctuation.map Prod.snd :=
    fun last isLast => isMark _ (Grammar.closesItem_of_items clean isLast)
  have cleanBehind := (reports_ofStream_indent (TokenStream.scan text).endOfFile.leading
    (.scan other)).trans cleanOther
  have treeBehind := tree_ofStream_indent (TokenStream.scan text).endOfFile.leading (.scan other)
  have itemsEq := Grammar.items_append (Grammar.endsDeclaration_next cleanBehind)
    (TokenStream.scan text).tokens clean
  rw [parse_eq_ofStream (text ++ other), TokenStream.scan_append terminated closes other, ofStream,
    itemsEq, parse_eq_ofStream other, ← treeBehind]
  refine ⟨List.append_eq_nil_iff.mpr ⟨clean, cleanBehind⟩, ?_⟩
  simp [Parsed.andThen, ofStream, Tree.children]

end SourceTree

namespace Attachment

open Package (annotatedText)

/-- The metadata of a service without errors comes first. -/
theorem metadataFirst_of_mem {tokens : List Token} {child : Tree Token}
    (inside : child ∈ (Grammar.items tokens).elements) (gets : getsAttachment child)
    (clean : (Grammar.items tokens).reports = []) : MetadataFirst child := by
  have noProblems : (Grammar.items tokens).problems = [] := by
    rw [Parsed.problems, clean, List.map_nil]
  obtain ⟨_, behind, _, elements, _⟩ := exists_member_of_mem inside gets noProblems
  intro data found
  have isElement : child ∈ (Grammar.member behind).elements := by simp [elements]
  obtain ⟨alone, nonempty⟩ :=
    Grammar.metadata_of_mem (Grammar.metadata_of_mem_member isElement found)
  rw [Grammar.member_eq] at isElement
  obtain rfl := List.mem_singleton.mp isElement
  refine ⟨nonempty, ?_⟩
  rw [Tree.children, Parsed.andThen, alone]
  exact ⟨_, rfl⟩

/-- The pass prints the trivia that moved to the first token of a document in front of the
document. -/
theorem textOf_map_annotateChild_indent {pieces : Trivia} {other : List Char}
    (clean : (SourceTree.parse other).reports = []) (noReturn : '\r' ∉ pieces.text ++ other) :
    Tree.textOf
        (((SourceTree.parse other).tree.mapFirst (Token.indent pieces)).children.map annotateChild) =
      pieces.text ++ annotatedText other := by
  obtain ⟨child, others, treeEq, nonempty⟩ := SourceTree.exists_first_child other
  have textEq := SourceTree.text_parse other
  rw [treeEq, Tree.text_node, Tree.textOf_cons] at textEq
  have metadataFirst : getsAttachment child → MetadataFirst child := by
    intro gets
    have isChild : child ∈ (SourceTree.parse other).tree.children := by simp [treeEq, Tree.children]
    rcases List.mem_append.mp isChild with isItem | isEnd
    · exact metadataFirst_of_mem isItem gets clean
    · obtain rfl := List.mem_singleton.mp isEnd
      cases gets
  have childNoReturn : '\r' ∉ pieces.text ++ child.text := by
    rw [← textEq, ← List.append_assoc] at noReturn
    exact fun inside => noReturn (List.mem_append_left _ inside)
  rw [treeEq, Tree.mapFirst_node_cons _ _ nonempty, annotatedText, treeEq, annotateTree_modulePart,
    Tree.text_node, Tree.children, List.map_cons, List.map_cons, Tree.textOf_cons, Tree.textOf_cons,
    text_annotateChild_indent nonempty metadataFirst childNoReturn, List.append_assoc]

/-- **Documents without problems can be put one behind the other.** Where the first one is empty or
ends with a line feed, both are read as they are read alone, and without carriage returns the pass
prints them as it prints them alone. -/
theorem annotatedText_append {text other : List Char}
    (clean : (SourceTree.parse text).problems = [])
    (terminated : text = [] ∨ text.getLast? = some '\n')
    (cleanOther : (SourceTree.parse other).problems = []) :
    (SourceTree.parse (text ++ other)).problems = [] ∧
      (∃ children endOfFile, endOfFile.kind = .endOfFile ∧
        (SourceTree.parse text).tree = .node .modulePart (children ++ [.leaf endOfFile]) ∧
        (SourceTree.parse (text ++ other)).tree = .node .modulePart
          (children ++ ((SourceTree.parse other).tree.mapFirst fun first =>
            first.withLeading (endOfFile.leading ++ first.leading)).children)) ∧
      ('\r' ∉ text → '\r' ∉ other →
        annotatedText (text ++ other) = annotatedText text ++ annotatedText other) := by
  rw [SourceTree.problems_eq_nil_iff] at clean cleanOther ⊢
  have feed : Scan.Terminated text := by
    rcases terminated with rfl | feed
    · exact fun _ isLast => nomatch isLast
    · exact fun _ isLast => Option.some.inj (isLast.symm.trans feed)
  obtain ⟨cleanBoth, treeEq⟩ := SourceTree.parse_append clean feed cleanOther
  obtain ⟨pieces, _, endEq, _, split⟩ := TokenStream.tiles_scan text
  refine ⟨cleanBoth, ⟨_, (TokenStream.scan text).endOfFile, by rw [endEq], rfl, treeEq⟩, ?_⟩
  intro noReturn noReturnOther
  have noReturnBetween : '\r' ∉ (TokenStream.scan text).endOfFile.leading.text ++ other := by
    rw [endEq]
    intro inside
    rcases List.mem_append.mp inside with front | behind
    · rw [split] at noReturn
      exact noReturn (List.mem_append_right _ front)
    · exact noReturnOther behind
  have textEq : annotatedText text =
      Tree.textOf ((Grammar.items (TokenStream.scan text).tokens).elements.map annotateChild) ++
        (TokenStream.scan text).endOfFile.leading.text := by
    rw [annotatedText, SourceTree.parse, annotateTree_modulePart, Tree.text_node, List.map_append,
      Tree.textOf_append, endEq]
    simp [annotateChild, Tree.isNode, Token.text]
  rw [annotatedText, treeEq, annotateTree_modulePart, Tree.text_node, List.map_append,
    Tree.textOf_append, textOf_map_annotateChild_indent cleanOther noReturnBetween, textEq,
    List.append_assoc]

/-- An import with a comment behind it, and a service. -/
theorem annotatedText_append_comment :
    (SourceTree.parse "import a;\n// note\n".toList).problems = [] ∧
      ("import a;\n// note\n".toList = [] ∨
        "import a;\n// note\n".toList.getLast? = some '\n') ∧
      (SourceTree.parse "service T on ep \x7b\x7d\n".toList).problems = [] ∧
      (SourceTree.parse
        ("import a;\n// note\n".toList ++ "service T on ep \x7b\x7d\n".toList)).problems = [] ∧
      annotatedText ("import a;\n// note\n".toList ++ "service T on ep \x7b\x7d\n".toList) =
        annotatedText "import a;\n// note\n".toList ++
          annotatedText "service T on ep \x7b\x7d\n".toList := by
  have clean : (SourceTree.parse "import a;\n// note\n".toList).problems = [] := by
    decide +kernel
  have terminated : "import a;\n// note\n".toList = [] ∨
      "import a;\n// note\n".toList.getLast? = some '\n' := by
    decide
  have cleanOther : (SourceTree.parse "service T on ep \x7b\x7d\n".toList).problems = [] := by
    decide +kernel
  obtain ⟨cleanBoth, _, sameText⟩ := annotatedText_append clean terminated cleanOther
  exact ⟨clean, terminated, cleanOther, cleanBoth, sameText (by decide) (by decide)⟩

end Attachment

end ServiceAnnotator
