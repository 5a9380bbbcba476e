import ServiceAnnotator.Proofs.Attachment.Target
import ServiceAnnotator.Proofs.Events.Parse
import ServiceAnnotator.Proofs.Grammar.Shape.Declaration

/-!
# The tree of any text is in shape

Whatever a text is, parsing gives a module in which each node holds what nodes of its kind hold. A
service has a type exactly if a name stands behind its keyword.
-/

open scoped Computability

namespace ServiceAnnotator

namespace Grammar

open ServiceView (type? type?_eq_find? isReference)

variable {α : Type} [Kinded α]

/-- The type of a service is what is read where its header starts with a name. -/
theorem isSome_find?_serviceParts (header : List α) :
    ((serviceParts header).elements.find? isReference).isSome ↔ next header = .identifier := by
  obtain ⟨others, elementsEq, noNode⟩ := elements_serviceParts header
  have noReference : others.find? isReference = none := noNode Kind.isReference rfl rfl rfl
  rw [elementsEq, List.find?_append, noReference, Option.or_none]
  by_cases named : next header = .identifier
  · have fits := fits_serviceType header
    rw [if_pos named] at fits
    obtain ⟨kind, isSuch, parts⟩ := fits.parts
    obtain ⟨type, elements, isNode⟩ := List.map_eq_singleton_iff.mp parts
    cases type with
    | leaf item => cases isNode
    | node other children =>
      obtain rfl : other = kind := by simpa [Tree.part] using isNode
      simp [elements, isReference, Tree.isNode, Tree.kind, isSuch, named]
  · rw [serviceType, if_neg named]
    simp [Parsed.none, named]

/-- A service, taken apart at its keyword. It has a type exactly if a name stands behind the
keyword, in the service or behind it. -/
theorem exists_keyword_of_member {tokens : List α} {children : List (Tree α)}
    (elements : (member tokens).elements = [.node .serviceDeclaration children]) :
    ∃ front keyword behind, children = front ++ .leaf keyword :: behind ∧
      Kinded.kind keyword = .serviceKw ∧
      ((type? (.node .serviceDeclaration children)).isSome ↔
        next (Tree.leavesOf behind ++ (member tokens).rest) = .identifier) := by
  rw [member_eq, Parsed.wrap] at elements
  obtain ⟨isService, childrenEq⟩ := Tree.node.inj (List.cons.inj elements).1
  obtain ⟨words, header, split, service, noClass⟩ := exists_of_qualified_service isService
  have qualifiedEq := qualified_service service noClass
  have covers := (composed_serviceParts header).covers
  rw [Parsed.andThen, split, qualifiedEq] at childrenEq
  rw [member_eq, Parsed.rest_wrap, Parsed.rest_andThen, split, qualifiedEq]
  obtain ⟨marks, keyword, rfl, _, isKeyword⟩ := service
  refine ⟨(metadata tokens).elements ++ marks.map .leaf, keyword, (serviceParts header).elements,
    ?_, isKeyword, ?_⟩
  · rw [← childrenEq]
    simp
  · have noMetadata : (metadata tokens).elements.find? isReference = none :=
      noNode_metadata (p := Kind.isReference) rfl tokens
    have noWords : ((marks ++ [keyword]).map Tree.leaf).find? isReference = none :=
      noNode_leaves (p := Kind.isReference) _
    rw [covers, type?_eq_find?, Tree.children, ← childrenEq, List.find?_append, noMetadata,
      Option.none_or, List.find?_append, noWords, Option.none_or]
    exact isSome_find?_serviceParts header

theorem exists_keyword_of_items {after children : List (Tree α)} (tokens : List α) :
    ∀ before, (items tokens).elements = before ++ .node .serviceDeclaration children :: after →
      ∃ front keyword behind, children = front ++ .leaf keyword :: behind ∧
        Kinded.kind keyword = .serviceKw ∧
        ((type? (.node .serviceDeclaration children)).isSome ↔
          next (Tree.leavesOf behind ++ Tree.leavesOf after) = .identifier) := by
  intro before split
  obtain ⟨behind, rest, _, item, further, _⟩ := exists_firstItem_behind split
  rw [← further, leavesOf_items]
  cases item with
  | importDeclaration _ elements => cases elements
  | member elements => exact exists_keyword_of_member elements

end Grammar

namespace Events

open Grammar (next)

/-- The tree of a document over its tokens as they are cut out of the text. -/
theorem map_slice_parse (text : List Char) :
    (SourceTree.parse text).tree.map Token.slice =
      .node .modulePart ((Grammar.items ((TokenStream.scan text).tokens.map Token.slice)).elements ++
        [.leaf (TokenStream.scan text).endOfFile.slice]) := by
  rw [Grammar.items_map (f := Token.slice) fun _ => rfl]
  simp [SourceTree.parse, Parsed.relabel]

theorem fits_map_slice_parse (text : List Char) :
    ((SourceTree.parse text).tree.map Token.slice).Fits := by
  rw [map_slice_parse]
  exact Grammar.fits_modulePart _ (TokenStream.kind_endOfFile text)

/-- The tree of any text is a module in which every node holds what nodes of its kind hold, so there
is no node that was struck out. The end of the file is the last of all tokens and no other. A
service has a type exactly if the token behind its keyword is a name. -/
theorem parse_fits (text : List Char) :
    ∃ tree children endOfFile diagnostics,
      (parse text).run = some (.ok (tree, diagnostics)) ∧
      tree = .node .modulePart (children ++ [.leaf endOfFile]) ∧
      tree.Fits ∧
      (∀ node ∈ tree.nodes, node.kind ≠ .tombstone) ∧
      endOfFile.kind = .endOfFile ∧
      (∀ slice ∈ Tree.leavesOf children, slice.kind ≠ .endOfFile) ∧
      ∀ before parts after, children = before ++ .node .serviceDeclaration parts :: after →
        ∃ front keyword behind, parts = front ++ .leaf keyword :: behind ∧
          keyword.kind = .serviceKw ∧
          ((ServiceView.type? (.node .serviceDeclaration parts)).isSome ↔
            next (Tree.leavesOf behind ++ Tree.leavesOf after) = .identifier) := by
  have ends : (TokenStream.scan text).endOfFile.kind = .endOfFile := (Source.ofText text).ends
  have fits := fits_map_slice_parse text
  refine ⟨_, _, _, _, parse_eq text, map_slice_parse text, fits, fits.kind_ne_tombstone, ends,
    ?_, ?_⟩
  · rw [Grammar.leavesOf_items]
    intro slice inside
    obtain ⟨token, scanned, rfl⟩ := List.mem_map.mp inside
    exact TokenStream.kind_ne_endOfFile scanned
  · intro before parts after split
    exact Grammar.exists_keyword_of_items _ before split

end Events

end ServiceAnnotator
