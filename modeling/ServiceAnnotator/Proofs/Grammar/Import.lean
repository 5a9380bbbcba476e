import ServiceAnnotator.Proofs.Events.Shape
import ServiceAnnotator.Proofs.Grammar.Accepts.Module
import ServiceAnnotator.Proofs.Tree.TopLevel

/-!
# Imports without problems

An import reads a run of tokens up to its semicolon. The path of a module with an alias is such a
run, and so is anything else in which all brackets are closed. Where the semicolon is missing, only
the keyword of another import tells: whatever else follows belongs to the import up to the next
semicolon.
-/

open scoped Computability

namespace ServiceAnnotator

namespace Phrase

/-! ## The documented form -/

/-- The path of a module, with an organization in front or without. -/
def modulePath : Language Kind :=
  token .identifier * optional (token .slash * token .identifier) *
    (token .dot * token .identifier)∗

/-- An import as it is documented: the path of a module, with an alias or without. -/
def documentedImport : Language Kind :=
  token .importKw * (modulePath * optional (token .asKw * token .identifier)) * token .semicolon

/-- Kinds of tokens between the keyword and the semicolon. -/
def pathKinds : List Kind := [.identifier, .slash, .dot, .asKw]

theorem onlyOf_path :
    OnlyOf (· ∈ pathKinds) (modulePath * optional (token .asKw * token .identifier)) := by
  have one (kind : Kind) (inside : kind ∈ pathKinds) : OnlyOf (· ∈ pathKinds) (token kind) :=
    .letter inside
  have name := one .identifier (by decide)
  have organization := OnlyOf.one.add ((one .slash (by decide)).mul name)
  have parts := ((one .dot (by decide)).mul name).kstar
  have prefixed := OnlyOf.one.add ((one .asKw (by decide)).mul name)
  exact ((name.mul organization).mul parts).mul prefixed

theorem onlyOf_documentedImport :
    OnlyOf (· ∈ .importKw :: .semicolon :: pathKinds) documentedImport := by
  have path : OnlyOf (· ∈ .importKw :: .semicolon :: pathKinds)
      (modulePath * optional (token .asKw * token .identifier)) :=
    fun phrase inside kind found => .tail _ (.tail _ (onlyOf_path phrase inside kind found))
  exact ((OnlyOf.letter (.head _)).mul path).mul (.letter (.tail _ (.head _)))

theorem path_ne_nil {phrase : List Kind}
    (inside : phrase ∈ modulePath * optional (token .asKw * token .identifier)) : phrase ≠ [] := by
  rw [modulePath, mul_assoc, mul_assoc] at inside
  obtain ⟨first, rest, rfl, -⟩ := (startsWith_token .identifier).mul _ phrase inside
  exact List.cons_ne_nil first rest

/-- Tokens that are no brackets and do not stop a run are one. -/
theorem isRun_of_forall {stop phrase : List Kind} (some : phrase ≠ [])
    (flat : ∀ kind ∈ phrase, weight kind = 0) (free : ∀ kind ∈ phrase, kind ∉ stop) :
    IsRun stop phrase := by
  have level (front : List Kind) (inside : ∀ kind ∈ front, weight kind = 0) : depth front = 0 := by
    induction front with
    | nil => rfl
    | cons kind front ih =>
      rw [depth, inside kind (.head _), ih fun other later => inside other (.tail _ later)]
      rfl
  refine ⟨some, level phrase flat, fun front isPrefix => ?_, fun front kind isPrefix _ => ?_⟩
  · exact (level front fun kind inside => flat kind (isPrefix.subset inside)).ge
  · exact free kind (isPrefix.subset (by simp))

/-- An import of the documented form is read without a report. -/
theorem documentedImport_le : documentedImport ≤ importDeclaration := by
  refine mul_le_mul_left (mul_le_mul_right ?_ _) _
  intro phrase inside
  have only := onlyOf_path phrase inside
  have each : ∀ kind ∈ pathKinds, weight kind = 0 ∧ kind ∉ [Kind.semicolon, .importKw] := by decide
  exact isRun_of_forall (path_ne_nil inside) (fun kind found => (each kind (only kind found)).1)
    fun kind found => (each kind (only kind found)).2

end Phrase

namespace Grammar

/-! ## Imports of a module -/

/-- A declaration is no import. -/
theorem kind_of_mem_member {tokens : List Kind} {child : Tree Kind}
    (inside : child ∈ (member tokens).elements) : child.kind ≠ .importDeclaration := by
  rw [member_eq] at inside
  obtain rfl := List.mem_singleton.mp inside
  show (qualified (metadata tokens).rest).1 ≠ .importDeclaration
  obtain ⟨_, _, behind, isDeclaration, _⟩ :=
    Language.mem_mul.mp (fits_qualified (metadata tokens).rest).parts
  rcases isMember_of_mem_declaration isDeclaration with isMember | isError
  · intro same
    rw [same] at isMember
    cases isMember
  · rw [isError]
    decide

/-- An import that is read without a report is one node, and its tokens are those in front of the
rest. -/
theorem exists_node_importDeclaration {tokens rest : List Kind}
    (clean : (importDeclaration .importKw tokens).Clean rest) :
    ∃ parts, (importDeclaration .importKw tokens).elements = [.node .importDeclaration parts] ∧
      Tree.leavesOf parts ∈ Phrase.importDeclaration ∧
      Tree.leavesOf parts ++ rest = .importKw :: tokens := by
  have accepts : Accepts (importDeclaration .importKw) _ fun _ => True :=
    accepts_importDeclaration .importKw
  obtain ⟨front, inFront, rfl⟩ := (accepts tokens rest trivial).mp clean
  have whole : Tree.leavesOf (importDeclaration .importKw (front ++ rest)).elements ++ rest =
      .importKw :: (front ++ rest) := by
    have covers := (composed_importDeclaration Kind.importKw (front ++ rest)).covers
    rwa [Parsed.Covers, clean.2] at covers
  rw [importDeclaration, Parsed.wrap] at whole ⊢
  rw [Tree.leavesOf_cons, Tree.leaves_node, Tree.leavesOf_nil, List.append_nil] at whole
  refine ⟨_, rfl, ?_, whole⟩
  rw [← List.cons_append] at whole
  rw [List.append_cancel_right whole, Phrase.importDeclaration, mul_assoc]
  exact ⟨[.importKw], rfl, front, inFront, rfl⟩

/-- In a module without problems the tokens of every import are a phrase of the language of
imports. -/
theorem leaves_mem_of_clean (tokens : List Kind) (clean : (items tokens).reports = []) :
    ∀ child ∈ (items tokens).elements, child.isNode → child.kind = .importDeclaration →
      child.leaves ∈ Phrase.importDeclaration := by
  intro child inside isNode kindEq
  obtain ⟨before, after, split⟩ := List.append_of_mem inside
  obtain ⟨behind, rest, _, item, _, suffix⟩ := exists_firstItem_behind split
  rw [clean] at suffix
  have noReports := List.suffix_nil.mp suffix
  cases item with
  | @importDeclaration first rest _ isImport elements itemsEq =>
    obtain rfl : first = .importKw := isImport
    rw [itemsEq] at noReports
    have cleanImport := (List.append_eq_nil_iff.mp noReports).1
    obtain ⟨parts, elementsEq, isPhrase, -⟩ := exists_node_importDeclaration ⟨cleanImport, rfl⟩
    obtain rfl := List.singleton_inj.mp (elements.symm.trans elementsEq)
    rwa [Tree.leaves_node]
  | member elements =>
    have isElement : child ∈ (member behind).elements := by simp [elements]
    exact absurd kindEq (kind_of_mem_member isElement)
  | error problem itemsEq =>
    rw [itemsEq] at noReports
    cases noReports

/-- Whatever stands in front of a semicolon as an import is read as one, and what stands behind is
read as it is without the import. -/
theorem items_import_append {item : List Kind} (isItem : item ∈ Phrase.importDeclaration)
    (rest : List Kind) :
    ∃ parts, Tree.leavesOf parts = item ∧
      (items (item ++ rest)).elements = .node .importDeclaration parts :: (items rest).elements ∧
      (items (item ++ rest)).reports = (items rest).reports := by
  have accepts : Accepts (importDeclaration .importKw) _ fun _ => True :=
    accepts_importDeclaration .importKw
  rw [Phrase.importDeclaration, mul_assoc] at isItem
  obtain ⟨_, rfl, front, inFront, rfl⟩ := isItem
  have clean := (accepts (front ++ rest) rest trivial).mpr ⟨front, inFront, rfl⟩
  obtain ⟨parts, elementsEq, -, whole⟩ := exists_node_importDeclaration clean
  have itemsEq : items ([.importKw] ++ front ++ rest) =
      (importDeclaration .importKw (front ++ rest)).andThen items := by
    show items (.importKw :: (front ++ rest)) = _
    rw [items_cons, kind_self, if_pos rfl]
  refine ⟨parts, List.append_cancel_right whole, ?_, ?_⟩
  · rw [itemsEq, Parsed.andThen, clean.2, elementsEq]
    rfl
  · rw [itemsEq, Parsed.andThen, clean.2, clean.1]
    rfl

end Grammar

namespace Events

/-- Parsing without a report leaves it open whether an import is more than the path of a module. The
tokens of each import are a run up to a semicolon, outside whose brackets there is neither a
semicolon nor the keyword of an import. An import of the documented form is such a run, and there
are others. Every such run in front of a module is an import of it, and the module behind it is
parsed as if it stood alone. -/
theorem imports_of_clean (text : List Char) :
    Phrase.documentedImport ≤ Phrase.importDeclaration ∧ ∃ children diagnostics,
      (parse text).run = some (.ok (.node .modulePart children, diagnostics)) ∧
      (diagnostics = [] →
        ∀ node ∈ (Tree.node .modulePart children).nodes, node.kind = .importDeclaration →
          node.leaves.map Slice.kind ∈ Phrase.importDeclaration) ∧
      ∀ item ∈ Phrase.importDeclaration, ∀ rest,
        (TokenStream.scan text).tokens.map Token.kind = item ++ rest →
          (diagnostics = [] ↔ Phrase.IsModule rest) ∧
          ∃ parts behind, children = .node .importDeclaration parts :: behind ∧
            (Tree.leavesOf parts).map Slice.kind = item := by
  have slices := Grammar.items_map (f := Token.slice) (fun _ => rfl) (TokenStream.scan text).tokens
  have kinds := Grammar.items_map (f := Slice.kind) (fun _ => rfl)
    ((TokenStream.scan text).tokens.map Token.slice)
  have sameKinds : ((TokenStream.scan text).tokens.map Token.slice).map Slice.kind =
      (TokenStream.scan text).tokens.map Token.kind := by
    rw [List.map_map]
    rfl
  rw [sameKinds] at kinds
  have clean : (SourceTree.parse text).problems = [] ↔
      (Grammar.items ((TokenStream.scan text).tokens.map Token.kind)).reports = [] := by
    rw [SourceTree.problems, List.map_eq_nil_iff, kinds, slices]
    rfl
  have fits := fits_map_slice_parse text
  rw [map_slice_parse] at fits
  refine ⟨Phrase.documentedImport_le, _, _, (parse_eq text).trans (by rw [map_slice_parse]), ?_, ?_⟩
  · intro noReports node inside isImport
    obtain ⟨isChild, isNode⟩ := fits.mem_children_of_import inside isImport
    rcases List.mem_append.mp isChild with isItem | isEnd
    · have isPhrase := Grammar.leaves_mem_of_clean _ (clean.mp noReports) (node.map Slice.kind)
      rw [kinds, Tree.leaves_map] at isPhrase
      refine isPhrase ?_ (by rwa [Tree.isNode_map]) ?_
      · rw [Parsed.relabel, Tree.mapAll_eq_map]
        exact List.mem_map_of_mem isItem
      · rwa [Tree.kind_map (f := Slice.kind) fun _ => rfl]
    · rw [List.mem_singleton.mp isEnd] at isNode
      cases isNode
  · intro item isItem rest split
    obtain ⟨parts, leavesEq, elementsEq, reportsEq⟩ := Grammar.items_import_append isItem rest
    rw [← split] at elementsEq reportsEq
    refine ⟨?_, ?_⟩
    · rw [clean, reportsEq, Grammar.reports_items_eq_nil_iff]
    · rw [kinds, Parsed.relabel, Tree.mapAll_eq_map] at elementsEq
      obtain ⟨first, behind, childrenEq, firstEq, -⟩ := List.map_eq_cons_iff.mp elementsEq
      rw [childrenEq]
      cases first with
      | leaf token => cases firstEq
      | node kind parts =>
        rw [Tree.map_node] at firstEq
        obtain ⟨rfl, rfl⟩ := Tree.node.inj firstEq
        rw [Tree.leavesOf_mapAll] at leavesEq
        exact ⟨parts, _, rfl, leavesEq⟩

/-- An import without a semicolon takes the service behind it, up to the semicolon of a constant,
and nothing is reported. -/
theorem import_takes_service :
    ∃ children,
      (parse "import a/b\nservice T on ep \x7b\x7d\nconst X = 1;\n".toList).run =
        some (.ok (.node .modulePart children, [])) ∧
      ∃ node ∈ (Tree.node .modulePart children).nodes, node.kind = .importDeclaration ∧
        Kind.serviceKw ∈ node.leaves.map Slice.kind ∧
        node.leaves.map Slice.kind ∉ Phrase.documentedImport := by
  let text := "import a/b\nservice T on ep \x7b\x7d\nconst X = 1;\n".toList
  have clean : (SourceTree.parse text).problems = [] := by decide +kernel
  have found : ∃ node ∈ ((SourceTree.parse text).tree.map Token.slice).nodes,
      node.kind = .importDeclaration ∧ Kind.serviceKw ∈ node.leaves.map Slice.kind := by
    decide +kernel
  have parsed := parse_eq text
  rw [clean, map_slice_parse] at parsed
  rw [map_slice_parse] at found
  obtain ⟨node, inside, isImport, service⟩ := found
  refine ⟨_, parsed, node, inside, isImport, service, fun documented => ?_⟩
  have outside : Kind.serviceKw ∉ Kind.importKw :: .semicolon :: Phrase.pathKinds := by decide
  exact outside (Phrase.onlyOf_documentedImport _ documented _ service)

end Events

end ServiceAnnotator
