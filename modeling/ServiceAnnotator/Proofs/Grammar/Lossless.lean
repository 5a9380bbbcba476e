import ServiceAnnotator.Proofs.Grammar.Composed
import ServiceAnnotator.Proofs.Scan.Reading
import ServiceAnnotator.Proofs.Tree.Leaves

/-!
# The grammar keeps every token

Each rule puts the tokens that it reads into its elements, in their order, and leaves the others
behind. Recovery after an error is no exception, so the tree of a document has exactly the tokens of
the document, and with them its text.
-/

namespace ServiceAnnotator

/-! ## Rules in general -/

/-- What was read covers tokens: they are the leaves of its elements and the rest. -/
def Parsed.Covers {α : Type} (parsed : Parsed α) (tokens : List α) : Prop :=
  Tree.leavesOf parsed.elements ++ parsed.rest = tokens

/-- What is put together step by step keeps every token. -/
theorem Parsed.Composed.covers {α : Type} {parsed : Parsed α} {tokens : List α}
    (composed : parsed.Composed tokens) : parsed.Covers tokens := by
  induction composed with
  | none tokens => rfl
  | tokens count tokens =>
    rw [Covers, Parsed.tokens, Tree.leavesOf_map_leaf, List.take_append_drop]
  | andThen _ _ first second =>
    unfold Covers at first second ⊢
    rw [Parsed.andThen, Tree.leavesOf_append, List.append_assoc, second, first]
  | wrap _ kind covers => simpa [Parsed.wrap, Covers] using covers
  | cons _ item covers => simpa [Parsed.cons, Covers] using covers
  | consNode _ kind item covers => simpa [Parsed.cons, Covers] using covers
  | report _ problem covers => exact covers

namespace Parsed.Covers

variable {α : Type} {parsed : Parsed α} {tokens : List α}

/-- A single element has the tokens in front of the rest. -/
theorem eq_leaves_append (covers : parsed.Covers tokens) {element : Tree α}
    (elements : parsed.elements = [element]) : tokens = element.leaves ++ parsed.rest := by
  rw [Covers, elements, Tree.leavesOf_cons, Tree.leavesOf_nil, List.append_nil] at covers
  exact covers.symm

/-- The rest of what was read stands at the end of the tokens. -/
theorem exists_front (covers : parsed.Covers tokens) : ∃ front, tokens = front ++ parsed.rest :=
  ⟨_, covers.symm⟩

theorem length_rest_le (covers : parsed.Covers tokens) : parsed.rest.length ≤ tokens.length := by
  obtain ⟨front, split⟩ := covers.exists_front
  have lengthEq := congrArg List.length split
  rw [List.length_append] at lengthEq
  omega

/-- Where tokens were read, there are leaves. -/
theorem leavesOf_ne_nil (covers : parsed.Covers tokens)
    (shorter : parsed.rest.length < tokens.length) : Tree.leavesOf parsed.elements ≠ [] := by
  intro empty
  rw [Covers, empty, List.nil_append] at covers
  rw [covers] at shorter
  exact Nat.lt_irrefl _ shorter

end Parsed.Covers

namespace Grammar

variable {α : Type} [Kinded α]

/-! ## Modules -/

/-- A module is read to its end. -/
theorem rest_items (tokens : List α) : (items tokens).rest = [] := by
  fun_induction items tokens with
  | case1 => rfl
  | case2 first rest _ item more ih => exact ih
  | case3 first rest _ _ item more ih => exact ih
  | case4 first rest _ _ problem ih => exact ih

/-- The elements of a module have the tokens of the module, each once and in order. -/
theorem leavesOf_items (tokens : List α) : Tree.leavesOf (items tokens).elements = tokens := by
  have covers := (composed_items tokens).covers
  rwa [Parsed.Covers, rest_items, List.append_nil] at covers

/-! ## Items one behind the other -/

/-- What the first element of a module is read as, and the tokens that the further elements are read
from: an import, a declaration, or a token that neither starts with. -/
inductive FirstItem : List α → Tree α → List α → Prop where
  | importDeclaration {first : α} {rest : List α} {element : Tree α}
      (isImport : Kinded.kind first = .importKw)
      (elements : (importDeclaration first rest).elements = [element])
      (itemsEq : items (first :: rest) = (importDeclaration first rest).andThen items) :
      FirstItem (first :: rest) element (importDeclaration first rest).rest
  | member {tokens : List α} {element : Tree α}
      (elements : (member tokens).elements = [element])
      (itemsEq : items tokens = (member tokens).andThen items) :
      FirstItem tokens element (member tokens).rest
  | error {first : α} {rest : List α} (problem : Problem)
      (itemsEq : items (first :: rest) =
        ((items rest).cons (.node .error [.leaf first])).report problem (rest.length + 1)) :
      FirstItem (first :: rest) (.node .error [.leaf first]) rest

theorem exists_firstItem {tokens : List α} {element : Tree α} {after : List (Tree α)}
    (split : (items tokens).elements = element :: after) :
    ∃ rest, FirstItem tokens element rest ∧ (items rest).elements = after := by
  cases tokens with
  | nil =>
    rw [items] at split
    cases split
  | cons first rest =>
    have itemsEq := items_cons first rest
    rw [itemsEq] at split
    split at itemsEq
    · rename_i isImport
      rw [if_pos isImport] at split
      obtain ⟨rfl, rfl⟩ := List.cons.inj split
      exact ⟨_, .importDeclaration isImport rfl itemsEq, rfl⟩
    · rename_i noImport
      rw [if_neg noImport] at split
      split at itemsEq
      · rename_i starts
        rw [if_pos starts] at split
        obtain ⟨rfl, rfl⟩ := List.cons.inj split
        exact ⟨_, .member rfl itemsEq, rfl⟩
      · rename_i noMember
        rw [if_neg noMember] at split
        obtain ⟨rfl, rfl⟩ := List.cons.inj split
        exact ⟨_, .error _ itemsEq, rfl⟩

namespace FirstItem

variable {tokens rest : List α} {element : Tree α}

/-- The first element has the tokens in front of those that are left. -/
theorem tokens_eq (item : FirstItem tokens element rest) : tokens = element.leaves ++ rest := by
  cases item with
  | importDeclaration _ elements =>
    exact (composed_importDeclaration _ _).covers.eq_leaves_append elements
  | member elements => exact (composed_member tokens).covers.eq_leaves_append elements
  | error => simp

/-- What is reported of the tokens that are left is reported last. -/
theorem reports_suffix (item : FirstItem tokens element rest) :
    (items rest).reports <:+ (items tokens).reports := by
  cases item with
  | importDeclaration _ _ itemsEq | member _ itemsEq =>
    rw [itemsEq]
    exact List.suffix_append _ _
  | error problem itemsEq =>
    rw [itemsEq]
    exact List.suffix_cons _ _

end FirstItem

/-- Every element of a module is the first one of those that are read from where it starts. -/
theorem exists_firstItem_behind {before after : List (Tree α)} {tokens : List α} {element : Tree α}
    (split : (items tokens).elements = before ++ element :: after) :
    ∃ behind rest, tokens = Tree.leavesOf before ++ behind ∧ FirstItem behind element rest ∧
      (items rest).elements = after ∧ (items behind).reports <:+ (items tokens).reports := by
  induction before generalizing tokens with
  | nil =>
    obtain ⟨rest, item, further⟩ := exists_firstItem split
    exact ⟨tokens, rest, rfl, item, further, List.suffix_refl _⟩
  | cons first before ih =>
    obtain ⟨next, item, further⟩ := exists_firstItem split
    obtain ⟨behind, rest, nextEq, found, afterEq, reports⟩ := ih further
    refine ⟨behind, rest, ?_, found, afterEq, reports.trans item.reports_suffix⟩
    rw [Tree.leavesOf_cons, List.append_assoc, ← nextEq]
    exact item.tokens_eq

/-! ## First tokens -/

/-- Metadata is one node with a token, if there is any. -/
theorem metadata_of_mem {tokens : List α} {data : Tree α}
    (inside : data ∈ (metadata tokens).elements) :
    (metadata tokens).elements = [data] ∧ data.leaves ≠ [] := by
  have alone : (metadata tokens).elements = [data] := by
    rw [metadata_eq] at inside ⊢
    split at inside
    · cases inside
    · rename_i some
      rw [if_neg some, List.mem_singleton.mp inside]
      rfl
  refine ⟨alone, ?_⟩
  cases tokens with
  | nil =>
    have noSign : next ([] : List α) ≠ .atSign := by simp [next]
    have noParts : metadataParts ([] : List α) = .none [] :=
      (Parsed.none_andThen [] attachments).trans (attachments_of_next_ne noSign)
    rw [metadata_eq, noParts] at alone
    cases alone
  | cons first rest =>
    by_cases starts : Kinded.kind first = .documentationLine ∨ Kinded.kind first = .atSign
    · have someLeaf := (composed_metadata (first :: rest)).covers.leavesOf_ne_nil
        (length_rest_metadata_lt starts)
      rwa [alone, Tree.leavesOf_cons, Tree.leavesOf_nil, List.append_nil] at someLeaf
    · rw [not_or] at starts
      rw [metadata_eq_none starts.1 starts.2] at alone
      cases alone

/-- The first item that is read takes the first token. -/
theorem exists_first_items (first : α) (rest : List α) :
    ∃ item others, (items (first :: rest)).elements = item :: others ∧ item.leaves ≠ [] := by
  rw [items_cons]
  split
  · exact ⟨_, _, rfl, by simp [Parsed.cons]⟩
  · split
    · rename_i starts
      have someLeaf := (composed_member (first :: rest)).covers.leavesOf_ne_nil
        (length_rest_member_lt starts)
      rw [member_eq, Parsed.wrap, Tree.leavesOf_cons, Tree.leavesOf_nil, List.append_nil] at someLeaf
      rw [member_eq]
      exact ⟨_, _, rfl, someLeaf⟩
    · exact ⟨_, _, rfl, by simp⟩

end Grammar

namespace SourceTree

/-- The tree of a document has the tokens of the document, the end of the file included. -/
theorem leaves_parse (text : List Char) : (parse text).tree.leaves = (TokenStream.scan text).all := by
  simp [parse, Grammar.leavesOf_items, TokenStream.all]

/-- The tree of a document gives back its text. -/
theorem text_parse (text : List Char) : (parse text).tree.text = text := by
  rw [Tree.text, leaves_parse]
  exact TokenStream.text_scan text

/-- The first child of a module has a token, which may be the end of the file. -/
theorem exists_first_child (text : List Char) :
    ∃ child others, (parse text).tree = .node .modulePart (child :: others) ∧
      child.leaves ≠ [] := by
  rw [parse]
  cases (TokenStream.scan text).tokens with
  | nil =>
    rw [Grammar.items]
    exact ⟨_, _, rfl, by simp⟩
  | cons first rest =>
    obtain ⟨item, others, elements, nonempty⟩ := Grammar.exists_first_items first rest
    rw [elements]
    exact ⟨item, _, rfl, nonempty⟩

end SourceTree

end ServiceAnnotator
