import Mathlib.Data.List.Forall2
import ServiceAnnotator.Proofs.Events.Parse

/-!
# Layout does not change the parse

Two texts whose tokens have the same kinds are read to the same tree, apart from what its tokens
hold, with the same problems at the tokens of the same numbers. Blanks, line breaks, comments and
the spelling of names and literals have no say in it.
-/

namespace ServiceAnnotator

/-! ## Texts with tokens of the same kinds -/

namespace Tokenizer

/-- Two tokenizers that yield tokens of the same kinds up to the end of the file. -/
structure SameKinds (tokenizer other : Tokenizer) : Prop where
  ahead : tokenizer.ahead = other.ahead
  kinds : ∀ steps < tokenizer.ahead, (tokenizer.after steps).kind = (other.after steps).kind

/-- The kinds of the tokens of a text, one at each step. -/
theorem map_range_kind (text : List Char) :
    (List.range (ofText text).ahead).map (fun steps => ((ofText text).after steps).kind) =
      (TokenStream.scan text).tokens.map Token.kind := by
  have currents := congrArg (List.map fun placed : PlacedToken => placed.token.kind)
    (Events.map_range_after text)
  have lengthEq : (Events.Source.ofText text).tokens.length = (ofText text).ahead := by
    rw [ahead_ofText, Events.Source.length_tokens_ofText]
  have tokensEq : (Events.Source.ofText text).tokens.map (fun placed => placed.token.kind) =
      (TokenStream.scan text).tokens.map Token.kind := by
    rw [← PlacedToken.map_token_sequence 0 (TokenStream.scan text).tokens, List.map_map]
    rfl
  rw [Events.Source.placed_ofText, List.range_succ, List.map_append, List.map_append,
    List.map_append, List.map_map, lengthEq, tokensEq] at currents
  exact (List.append_inj' currents rfl).1

theorem SameKinds.map_kind {text other : List Char}
    (same : (ofText text).SameKinds (ofText other)) :
    (TokenStream.scan text).tokens.map Token.kind =
      (TokenStream.scan other).tokens.map Token.kind := by
  rw [← map_range_kind, ← map_range_kind, ← same.ahead]
  apply List.map_congr_left
  intro steps inside
  exact same.kinds steps (List.mem_range.mp inside)

end Tokenizer

/-! ## Their trees and their problems -/

namespace Grammar

variable {α β : Type} [Kinded α] [Kinded β]

/-- Tokens of the same kinds are read to the same outline with the same reports. -/
theorem items_of_kinds {tokens : List α} {others : List β}
    (same : tokens.map kind = others.map kind) :
    Tree.mapAll kind (items tokens).elements = Tree.mapAll kind (items others).elements ∧
      (items tokens).reports = (items others).reports := by
  have left : items (tokens.map kind) = (items tokens).relabel kind :=
    items_map (f := (kind : α → Kind)) (fun _ => rfl) tokens
  have right : items (others.map kind) = (items others).relabel kind :=
    items_map (f := (kind : β → Kind)) (fun _ => rfl) others
  rw [same, right] at left
  exact ⟨(congrArg Parsed.elements left).symm, (congrArg Parsed.reports left).symm⟩

end Grammar

/-- Two diagnostics that say the same of the tokens of the same number of two tokenizers. -/
structure Diagnostic.Corresponds (tokenizer other : Tokenizer) (left right : Diagnostic) :
    Prop where
  severity : left.severity = right.severity
  message : left.message = right.message
  place : ∃ steps ≤ tokenizer.ahead,
    left.span = (tokenizer.after steps).current.lexemeSpan ∧
      right.span = (other.after steps).current.lexemeSpan

namespace SourceTree

variable {text other : List Char}
  (same : (Tokenizer.ofText text).SameKinds (Tokenizer.ofText other))

include same

/-- The tree of a document depends on the kinds of its tokens alone. -/
theorem outline_parse : (parse text).tree.outline = (parse other).tree.outline := by
  have stops (text : List Char) : Kinded.kind (TokenStream.scan text).endOfFile = .endOfFile :=
    TokenStream.kind_endOfFile text
  simp only [Tree.outline, parse, Tree.map_node, Tree.mapAll_append,
    (Grammar.items_of_kinds same.map_kind).1, Tree.mapAll_cons, Tree.map_leaf, Tree.mapAll_nil,
    stops]

/-- The problems of a document depend on the kinds and the places of its tokens alone. -/
theorem corresponds_problems :
    List.Forall₂ (Diagnostic.Corresponds (.ofText text) (.ofText other))
      (parse text).problems (parse other).problems := by
  have sameReports : (parse text).reports = (parse other).reports :=
    (Grammar.items_of_kinds same.map_kind).2
  rw [problems, problems, ← sameReports, List.forall₂_map_left_iff, List.forall₂_map_right_iff,
    List.forall₂_same]
  intro report _
  have inside : (parse text).stream.tokens.length - report.ahead ≤
      (Tokenizer.ofText text).ahead := by
    rw [Tokenizer.ahead_ofText]
    exact Nat.sub_le ..
  have sameLength : (parse other).stream.tokens.length = (parse text).stream.tokens.length := by
    have counted := congrArg List.length same.map_kind.symm
    rwa [List.length_map, List.length_map] at counted
  refine ⟨rfl, rfl, _, inside, ?_, ?_⟩
  · rw [Tokenizer.current_after_ofText text inside]
    rfl
  · rw [Tokenizer.current_after_ofText other (same.ahead ▸ inside), sameLength]
    rfl

end SourceTree

namespace Events

/-- Two texts with tokens of the same kinds are parsed to trees of the same outline, and what is
wrong with one of them is wrong with the other at the token of the same number. -/
theorem parse_of_sameKinds {text other : List Char}
    (same : (Tokenizer.ofText text).SameKinds (Tokenizer.ofText other)) :
    ∃ tree diagnostics tree' diagnostics',
      (parse text).run = some (.ok (tree, diagnostics)) ∧
      (parse other).run = some (.ok (tree', diagnostics')) ∧
      tree.outline = tree'.outline ∧
      List.Forall₂ (Diagnostic.Corresponds (.ofText text) (.ofText other))
        diagnostics diagnostics' := by
  refine ⟨_, _, _, _, parse_eq text, parse_eq other, ?_, SourceTree.corresponds_problems same⟩
  rw [Tree.outline, Tree.outline, Tree.map_map, Tree.map_map]
  exact SourceTree.outline_parse same

/-- An annotation without a declaration, on one line and with a comment inside. -/
theorem parse_of_sameKinds_comment :
    (Tokenizer.ofText "@a:b service".toList).SameKinds
        (Tokenizer.ofText "@x // y\n : z service\n".toList) ∧
      ∃ tree diagnostics tree' diagnostics',
        (parse "@a:b service".toList).run = some (.ok (tree, diagnostics)) ∧
        (parse "@x // y\n : z service\n".toList).run = some (.ok (tree', diagnostics')) ∧
        tree.outline = tree'.outline ∧
        List.Forall₂ (Diagnostic.Corresponds (.ofText "@a:b service".toList)
          (.ofText "@x // y\n : z service\n".toList)) diagnostics diagnostics' := by
  have same : (Tokenizer.ofText "@a:b service".toList).SameKinds
      (Tokenizer.ofText "@x // y\n : z service\n".toList) := by
    have ahead : (Tokenizer.ofText "@a:b service".toList).ahead =
        (Tokenizer.ofText "@x // y\n : z service\n".toList).ahead := by decide +kernel
    have kinds : ∀ steps < (Tokenizer.ofText "@a:b service".toList).ahead,
        ((Tokenizer.ofText "@a:b service".toList).after steps).kind =
          ((Tokenizer.ofText "@x // y\n : z service\n".toList).after steps).kind := by
      decide +kernel
    exact ⟨ahead, kinds⟩
  exact ⟨same, parse_of_sameKinds same⟩

end Events

end ServiceAnnotator
