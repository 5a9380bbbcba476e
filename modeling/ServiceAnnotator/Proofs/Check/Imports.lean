import ServiceAnnotator.Proofs.Check.Problems
import ServiceAnnotator.Proofs.Grammar.Shape.Declaration
import ServiceAnnotator.Proofs.Tree.Mapping
import ServiceAnnotator.Proofs.Tree.Position
import ServiceAnnotator.Proofs.Tree.TopLevel
import ServiceAnnotator.SourceCheck

/-!
# Repeated imports

A module is warned about each import of a path that an earlier import names. The walk that finds
them remembers the paths that it has seen; here an import is compared with those in front of it.
-/

open scoped Computability

namespace ServiceAnnotator

/-! ## Elements with positions -/

namespace Tree

mutual

/-- Positions are put on the tokens of a tree and nowhere else. -/
theorem map_token_place (start : Nat) (tree : Tree Token) :
    (place start tree).1.map PlacedToken.token = tree := by
  cases tree with
  | leaf token => simp [place]
  | node kind children => simp [place, mapAll_token_placeAll start children]

theorem mapAll_token_placeAll (start : Nat) (trees : List (Tree Token)) :
    mapAll PlacedToken.token (placeAll start trees).1 = trees := by
  cases trees with
  | nil => simp [placeAll]
  | cons tree trees =>
    simp [placeAll, map_token_place start tree, mapAll_token_placeAll (place start tree).2 trees]

end

end Tree

namespace Place

/-- The element of a place with the positions of its tokens. -/
def placed (place : Place) : Tree PlacedToken := (Tree.place place.start place.element).1

@[simp] theorem map_token_placed (place : Place) :
    place.placed.map PlacedToken.token = place.element := Tree.map_token_place ..

@[simp] theorem isNode_placed (place : Place) : place.placed.isNode = place.element.isNode := by
  rw [← map_token_placed, Tree.isNode_map]

@[simp] theorem kind_placed (place : Place) : place.placed.kind = place.element.kind := by
  rw [← place.map_token_placed, Tree.kind_map (f := PlacedToken.token) fun _ => rfl]

theorem placeAll_eq_map (place : Place) (index start : Nat) (trees : List (Tree Token)) :
    (Tree.placeAll start trees).1 = (place.childrenFrom index start trees).map placed := by
  induction trees generalizing index start with
  | nil => rfl
  | cons tree trees ih =>
    simp only [Tree.placeAll, childrenFrom, List.map_cons]
    rw [(Tree.place_eq start tree).2, ih (index + 1)]
    rfl

/-- The significant span of an element with tokens is its trimmed span. -/
theorem significantSpan?_placed {place : Place} (some : place.element.leaves ≠ []) :
    place.placed.significantSpan? = .some place.trimmedSpan := by
  obtain ⟨front, last, leavesEq⟩ := List.eq_nil_or_concat' place.element.leaves |>.resolve_left some
  obtain ⟨first, behind, consEq⟩ := List.exists_cons_of_ne_nil some
  have tokensEq : place.placed.leaves = PlacedToken.sequence place.start place.element.leaves :=
    place.tokens_eq
  have head : place.placed.leaves.head? = .some ⟨place.start, first⟩ := by
    rw [tokensEq, consEq]
    rfl
  have tail : place.placed.leaves.getLast? =
      .some ⟨place.start + Text.byteLength (front.flatMap Token.text), last⟩ := by
    rw [tokensEq, leavesEq, PlacedToken.sequence_append, List.getLast?_append]
    rfl
  have stop : place.start + Text.byteLength (front.flatMap Token.text) + last.leading.byteLength +
      Text.byteLength last.lexeme =
        place.start + place.element.byteLength - last.trailing.byteLength := by
    rw [Tree.byteLength, Tree.text, leavesEq, List.flatMap_append, Text.byteLength_append]
    simp only [List.flatMap_singleton, Token.text, Text.byteLength_append, Trivia.byteLength]
    omega
  have firstEq : place.element.firstLeaf? = .some first := by
    rw [Tree.firstLeaf?, consEq]
    rfl
  have lastEq : place.element.lastLeaf? = .some last := by
    rw [Tree.lastLeaf?, leavesEq, List.getLast?_concat]
  rw [Tree.significantSpan?, head, tail, trimmedSpan, firstEq, lastEq]
  simp only [Option.map_some, Option.getD_some, span, Span.ofLength, ← stop]
  rfl

/-- The places of children follow each other. -/
theorem pairwise_childrenFrom (place : Place) (index start : Nat) (trees : List (Tree Token)) :
    (∀ child ∈ place.childrenFrom index start trees, start ≤ child.span.start) ∧
      (place.childrenFrom index start trees).Pairwise fun left right =>
        left.span.stop ≤ right.span.start := by
  induction trees generalizing index start with
  | nil => exact ⟨fun _ inside => absurd inside List.not_mem_nil, .nil⟩
  | cons tree trees ih =>
    obtain ⟨behind, follow⟩ := ih (index + 1) (start + tree.byteLength)
    refine ⟨fun child inside => ?_, List.pairwise_cons.mpr ⟨behind, follow⟩⟩
    rcases List.mem_cons.mp inside with rfl | later
    · exact Nat.le_refl _
    · exact Nat.le_trans (Nat.le_add_right ..) (behind child later)

/-- A trimmed span lies within the span. -/
theorem trimmedSpan_within (place : Place) :
    place.span.start ≤ place.trimmedSpan.start ∧ place.trimmedSpan.start ≤ place.span.stop := by
  have lengths := place.element.byteLength_eq_trimmedText
  rw [trimmedSpan_eq]
  simp only [span, Span.ofLength]
  omega

theorem pairwise_children (place : Place) :
    place.children.Pairwise fun left right => left.trimmedSpan.start ≤ right.trimmedSpan.start := by
  refine (place.pairwise_childrenFrom 0 place.start place.element.children).2.imp
    fun {left right} follow => ?_
  calc left.trimmedSpan.start
    _ ≤ left.span.stop := left.trimmedSpan_within.2
    _ ≤ right.span.start := follow
    _ ≤ right.trimmedSpan.start := right.trimmedSpan_within.1

theorem Within.cuts_trimmedSpan {tree : Tree Token} {place : Place} (within : Within tree place) :
    place.trimmedSpan.Cuts tree.text := by
  obtain ⟨before, after, startEq, textEq⟩ := within.text_eq
  refine ⟨before ++ place.element.leadingText, place.element.trimmedText,
    place.element.trailingText ++ after, ?_, ?_⟩
  · rw [textEq, place.element.text_eq_trimmedText]
    simp only [List.append_assoc]
  · rw [trimmedSpan_eq, Text.byteLength_append, startEq]

end Place

/-! ## Imports of a module -/

namespace ImportView

/-- The imports among the children of a module, each with its place. -/
def places (root : Tree Token) : List Place :=
  (Place.root root).children.filter fun place =>
    place.element.isNode && place.element.kind == .importDeclaration

/-- Whether an import names a path that one of the imports in front of it names. -/
def Repeats (earlier : List Place) (place : Place) : Prop :=
  path place.element ≠ [] ∧ ∃ other ∈ earlier, path other.element = path place.element

instance (earlier : List Place) (place : Place) : Decidable (Repeats earlier place) :=
  inferInstanceAs (Decidable (_ ∧ _))

/-- The imports that name a path that an earlier one names. -/
def repeated (imports : List Place) : List Place :=
  (imports.zipIdx.filter fun (place, index) => Repeats (imports.take index) place).map Prod.fst

/-- The warning about an import that names a path again. -/
def warning (place : Place) : Diagnostic :=
  ⟨.warning, "duplicate import of `" ++ String.ofList (path place.element) ++ "`", place.trimmedSpan⟩

theorem repeated_sublist (imports : List Place) : (repeated imports).Sublist imports := by
  have picked := (List.filter_sublist (p := fun (place, index) =>
    decide (Repeats (imports.take index) place)) (l := imports.zipIdx)).map Prod.fst
  rwa [List.zipIdx_map_fst] at picked

theorem imports_placed (kind : Kind) (children : List (Tree Token)) :
    ModuleView.imports (Tree.node kind children).placed =
      (places (.node kind children)).map Place.placed := by
  have childrenEq : (Tree.node kind children).placed.children =
      (Place.root (.node kind children)).children.map Place.placed :=
    Place.placeAll_eq_map (.root (.node kind children)) 0 0 children
  rw [ModuleView.imports, Tree.nodesWhere, Tree.childNodes, childrenEq, List.filter_filter,
    List.filter_map, places]
  congr 1
  refine List.filter_congr fun place _ => ?_
  simp [Bool.and_comm]

theorem within_of_mem_places {root : Tree Token} {place : Place} (inside : place ∈ places root) :
    Place.Within root place := .child .root (List.mem_filter.mp inside).1

theorem pairwise_places (root : Tree Token) :
    (places root).Pairwise fun left right => left.trimmedSpan.start ≤ right.trimmedSpan.start :=
  (Place.root root).pairwise_children.sublist List.filter_sublist

/-- An import in shape has a token. -/
theorem leaves_ne_nil {node : Tree Token} (fits : node.Fits) (isNode : node.isNode)
    (isImport : node.kind = .importDeclaration) : node.leaves ≠ [] := by
  cases node with
  | leaf token => cases isNode
  | node kind parts =>
    obtain rfl : kind = .importDeclaration := isImport
    have held := ((Tree.fits_node_iff _ parts).mp fits).1
    rw [Shape.ofKind, mul_assoc] at held
    obtain ⟨_, rfl, _, _, partsEq⟩ := held
    cases parts with
    | nil => cases partsEq
    | cons keyword others =>
      cases keyword with
      | leaf token => simp
      | node other below => cases partsEq

/-- Whether a walk remembers the paths that the imports in front of it name. -/
def Remembers (seen : List (List Char)) (earlier : List Place) : Prop :=
  ∀ name, name ∈ seen ↔ name ≠ [] ∧ ∃ other ∈ earlier, path other.element = name

section Remembers

variable {seen : List (List Char)} {earlier : List Place} {place : Place}

theorem Remembers.repeats_iff (remembers : Remembers seen earlier) :
    Repeats earlier place ↔ path place.element ∈ seen := (remembers _).symm

/-- An import without a path, or with one that was seen, is nothing new. -/
theorem Remembers.skip (remembers : Remembers seen earlier)
    (known : path place.element = [] ∨ path place.element ∈ seen) :
    Remembers seen (earlier ++ [place]) := by
  intro name
  rw [remembers name]
  constructor
  · rintro ⟨some, other, inside, sameName⟩
    exact ⟨some, other, List.mem_append_left _ inside, sameName⟩
  · rintro ⟨some, other, inside, rfl⟩
    rcases List.mem_append.mp inside with before | last
    · exact ⟨some, other, before, rfl⟩
    · obtain rfl := List.mem_singleton.mp last
      exact (remembers _).mp (known.resolve_left some)

theorem Remembers.add (remembers : Remembers seen earlier) (some : path place.element ≠ []) :
    Remembers (path place.element :: seen) (earlier ++ [place]) := by
  intro name
  rw [List.mem_cons, remembers name]
  constructor
  · rintro (rfl | ⟨named, other, inside, sameName⟩)
    · exact ⟨some, place, List.mem_append_right _ (.head _), rfl⟩
    · exact ⟨named, other, List.mem_append_left _ inside, sameName⟩
  · rintro ⟨named, other, inside, sameName⟩
    rcases List.mem_append.mp inside with before | last
    · exact .inr ⟨named, other, before, sameName⟩
    · obtain rfl := List.mem_singleton.mp last
      exact .inl sameName.symm

end Remembers

/-- The walk over imports that remembers their paths finds those that name the path of one in front
of them. -/
theorem repeatedImports_map_placed {all earlier imports : List Place} {seen : List (List Char)}
    (split : all = earlier ++ imports) (remembers : Remembers seen earlier)
    (some : ∀ place ∈ imports, place.element.leaves ≠ []) :
    SourceTree.repeatedImports seen (imports.map Place.placed) =
      ((imports.zipIdx earlier.length).filter fun (place, index) => Repeats (all.take index) place).map
        fun (place, _) => warning place := by
  induction imports generalizing earlier seen with
  | nil => rfl
  | cons place imports ih =>
    have front : all.take earlier.length = earlier := by rw [split, List.take_left]
    have further {seen : List (List Char)} (remembers : Remembers seen (earlier ++ [place])) :=
      ih (by rw [split, List.append_assoc]; rfl) remembers
        fun other inside => some other (.tail _ inside)
    simp only [List.length_append, List.length_singleton] at further
    rw [List.map_cons, SourceTree.repeatedImports, Place.map_token_placed, List.zipIdx_cons,
      List.filter_cons]
    simp only [front, remembers.repeats_iff, decide_eq_true_eq]
    by_cases unnamed : path place.element = []
    · have unseen : path place.element ∉ seen := fun inside => ((remembers _).mp inside).1 unnamed
      rw [if_pos unnamed, if_neg unseen]
      exact further (remembers.skip (.inl unnamed))
    · rw [if_neg unnamed]
      by_cases known : path place.element ∈ seen
      · rw [if_pos known, if_pos (List.contains_iff_mem.mpr known),
          Place.significantSpan?_placed (some place (.head _)), List.map_cons]
        exact congrArg _ (further (remembers.skip (.inr known)))
      · rw [if_neg known, if_neg (mt List.contains_iff_mem.mp known)]
        exact further (remembers.add unnamed)

/-- The warnings about a module are those about the imports that name a path again. -/
theorem repeatedImports_parse (text : List Char) :
    SourceTree.repeatedImports [] (ModuleView.imports (SourceTree.parse text).tree.placed) =
      (repeated (places (SourceTree.parse text).tree)).map warning := by
  have fits : (SourceTree.parse text).tree.Fits :=
    Grammar.fits_modulePart _ (TokenStream.kind_endOfFile text)
  have some : ∀ place ∈ places (SourceTree.parse text).tree, place.element.leaves ≠ [] := by
    intro place inside
    obtain ⟨isChild, isImport⟩ := List.mem_filter.mp inside
    rw [Bool.and_eq_true, beq_iff_eq] at isImport
    obtain ⟨front, inner, behind, childrenEq, rfl⟩ := Place.mem_children_iff.mp isChild
    have isInside : inner ∈ (SourceTree.parse text).tree.children := by
      have within : inner ∈ front ++ inner :: behind := by simp
      rwa [← childrenEq] at within
    exact leaves_ne_nil (fits.child isInside) isImport.1 isImport.2
  have nothing : Remembers [] [] := by simp [Remembers]
  have walk := repeatedImports_map_placed rfl nothing some
  rw [repeated, List.map_map]
  exact (congrArg _ (imports_placed _ _)).trans walk

end ImportView

end ServiceAnnotator
