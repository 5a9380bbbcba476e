import ServiceAnnotator.Package.Compilation
import ServiceAnnotator.Proofs.Attachment.Reparse

/-!
# Documents read back

The text that the pass prints is scanned and parsed to the children before the pass, one by one,
each with its annotation as it is read back. What is wrong with the document stays the same.
-/

namespace ServiceAnnotator

namespace Grammar

variable {α : Type} [Kinded α]

/-- Behind a member other tokens are read as members as well. -/
theorem Follows.items_eq_member {tokens tokens' : List α} (follows : Follows tokens tokens')
    {first : α} {rest : List α} (tokensEq : tokens = first :: rest)
    (noImport : Kinded.kind first ≠ .importKw) (starts : startsMember (Kinded.kind first)) :
    items tokens' = (member tokens').andThen items := by
  have isMember : ∀ {first' : α} {rest' : List α}, Kinded.kind first' ≠ .importKw →
      startsMember (Kinded.kind first') →
      items (first' :: rest') = (member (first' :: rest')).andThen items := by
    intro first' rest' noImport starts
    rw [items_cons, if_neg noImport, if_pos starts]
  cases follows with
  | nil => cases tokensEq
  | same _ _ sameKind =>
    obtain ⟨rfl, rfl⟩ := List.cons.inj tokensEq
    exact isMember (sameKind ▸ noImport) (sameKind ▸ starts)
  | sign _ _ _ isSign =>
    apply isMember
    · rw [isSign]
      decide
    · rw [isSign]
      decide

end Grammar

namespace Attachment

open Grammar (items importDeclaration member)
open Package (annotatedText)
open TokenStream (Tiles)
open Scan (Alike)

theorem reread_node {kind : Kind} (other : kind ≠ .serviceDeclaration)
    (children : List (Tree Token)) : reread (.node kind children) = .node kind children := by
  apply reread_eq_self
  simp [getsAttachment, Tree.kind, other]

theorem reread_leaf (token : Token) : reread (.leaf token) = .leaf token := reread_eq_self rfl

/-- An import takes its keyword. -/
theorem exists_rest_importDeclaration (first : Token) (rest : List Token) :
    ∃ taken, rest = taken ++ (importDeclaration first rest).rest := by
  obtain ⟨front, split⟩ := (Grammar.composed_importDeclaration first rest).covers.exists_front
  cases front with
  | nil =>
    have shorter := Grammar.length_rest_importDeclaration_le first rest
    have lengthEq := congrArg List.length split
    simp only [List.nil_append, List.length_cons] at lengthEq
    omega
  | cons other taken => exact ⟨taken, (List.cons.inj split).2⟩

/-- Reading goes on behind an item that is read back. -/
theorem reread_andThen {item item' : Parsed Token}
    (elements : item'.elements = item.elements.map reread)
    (problems : item'.problems = item.problems)
    (furtherElements : (items item'.rest).elements = (items item.rest).elements.map reread)
    (furtherProblems : (items item'.rest).problems = (items item.rest).problems) :
    (item'.andThen items).elements = (item.andThen items).elements.map reread ∧
      (item'.andThen items).problems = (item.andThen items).problems := by
  constructor
  · rw [Parsed.andThen, Parsed.andThen, elements, furtherElements, List.map_append]
  · simp only [Parsed.problems, Parsed.andThen, List.map_append] at problems furtherProblems ⊢
    rw [problems, furtherProblems]

/-- The tokens of a module can be completed by the annotations such that the module is read back. -/
theorem exists_rewritten {ending : List Char} {tokens : List Token} (tiles : Tiles tokens ending) :
    ∃ tokens', Rewritten tokens tokens' ending ∧
      (items tokens').elements = (items tokens).elements.map reread ∧
      (items tokens').problems = (items tokens).problems := by
  fun_induction items tokens with
  | case1 => exact ⟨[], ⟨trivial, .nil, .refl _⟩, by rw [items]; exact ⟨rfl, rfl⟩⟩
  | case2 first rest isImport item more ih =>
    obtain ⟨taken, split⟩ := exists_rest_importDeclaration first rest
    have tokensEq : first :: rest = (first :: taken) ++ item.rest := congrArg (first :: ·) split
    rw [tokensEq] at tiles ⊢
    obtain ⟨rest', rewritten, elements, problems⟩ := ih (TokenStream.tiles_append.mp tiles).2
    obtain ⟨sameElements, sameProblems, restEq⟩ :=
      Grammar.agrees_importDeclaration rewritten.follows first taken [] (by rw [← split]; rfl)
    rw [← split] at sameElements sameProblems
    rw [← List.nil_append rest', ← restEq] at elements problems
    have kept : item.elements.map reread = item.elements :=
      congrArg (fun child => [child]) (reread_node (by decide) _)
    refine ⟨_, rewritten.keep _ tiles, ?_⟩
    rw [List.cons_append, Grammar.items_cons, if_pos isImport]
    exact reread_andThen (sameElements.trans kept.symm) sameProblems elements problems
  | case3 first rest noImport starts item more ih =>
    obtain ⟨front, tokensEq⟩ := (Grammar.composed_member (first :: rest)).covers.exists_front
    have memberEq : item = member (front ++ item.rest) := congrArg member tokensEq
    rw [tokensEq] at tiles
    obtain ⟨rest', rewritten, elements, problems⟩ := ih (TokenStream.tiles_append.mp tiles).2
    obtain ⟨tokens', outer, memberElements, memberProblems, restEq⟩ :=
      rewritten.reread_member tiles (by rw [← memberEq]) (by rw [← memberEq]; rfl)
    rw [← memberEq] at memberProblems
    have itemsEq := outer.follows.items_eq_member tokensEq.symm noImport starts
    rw [← restEq] at elements problems
    refine ⟨tokens', by rwa [tokensEq], ?_⟩
    rw [itemsEq]
    exact reread_andThen memberElements memberProblems elements problems
  | case4 first rest noImport noMember problem ih =>
    obtain ⟨rest', rewritten, elements, problems⟩ := ih tiles.2
    refine ⟨first :: rest', rewritten.keep [first] tiles, ?_, ?_⟩
    · rw [Grammar.items_cons, if_neg noImport, if_neg noMember, Parsed.report, Parsed.cons,
        elements, Parsed.report, Parsed.cons, List.map_cons, reread_node (by decide)]
    · rw [Grammar.items_cons, if_neg noImport, if_neg noMember]
      exact congrArg (problem :: ·) problems

/-- A document that the pass has printed, read back. -/
structure ReadBack (text : List Char) : Prop where
  tree : (SourceTree.parse (annotatedText text)).tree =
    .node .modulePart ((SourceTree.parse text).tree.children.map reread)
  problems : (SourceTree.parse (annotatedText text)).reports.map Report.problem =
    (SourceTree.parse text).reports.map Report.problem

theorem textOf_map_reread (children : List (Tree Token)) :
    Tree.textOf (children.map reread) = Tree.textOf (children.map annotateChild) := by
  induction children with
  | nil => rfl
  | cons child children ih =>
    rw [List.map_cons, List.map_cons, Tree.textOf_cons, Tree.textOf_cons, text_reread, ih]

/-- Every document is read back, whatever is wrong with it. -/
theorem readBack (text : List Char) : ReadBack text := by
  obtain ⟨pieces, leads, endEq, tiles, split⟩ := TokenStream.tiles_scan text
  obtain ⟨tokens', rewritten, elements, problems⟩ := exists_rewritten tiles
  have childrenEq : (SourceTree.parse text).tree.children.map reread =
      (items tokens').elements ++ [.leaf ⟨pieces, .endOfFile, [], []⟩] := by
    rw [elements, ← reread_leaf, ← List.map_singleton, ← List.map_append, ← endEq]
    rfl
  have annotatedEq : annotatedText text = tokens'.flatMap Token.text ++ pieces.text := by
    rw [annotatedText, SourceTree.parse, annotateTree_modulePart, Tree.text_node, ← textOf_map_reread]
    refine (congrArg Tree.textOf childrenEq).trans ?_
    rw [Tree.textOf, Tree.leavesOf_append, Grammar.leavesOf_items]
    simp [Token.text]
  have scanned : TokenStream.scan (annotatedText text) = ⟨tokens', ⟨pieces, .endOfFile, [], []⟩⟩ := by
    rw [annotatedEq, TokenStream.scan_of_tiles rewritten.tiles, TokenStream.scan_of_leads leads,
      List.append_nil]
  refine ⟨?_, ?_⟩
  · rw [childrenEq, SourceTree.parse, scanned]
  · simp only [SourceTree.parse, scanned]
    exact problems

end Attachment

end ServiceAnnotator
