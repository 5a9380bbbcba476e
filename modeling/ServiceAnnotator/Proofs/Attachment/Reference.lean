import ServiceAnnotator.Proofs.Attachment.Match

/-!
# References of attachments

Whatever is wrong with a text, the reference of an attachment in front of one of its declarations is
a name, a name and a colon, or two names with a colon between them.
-/

namespace ServiceAnnotator

open Attachment (IsReference)

/-- Whether the reference of an attachment, if there is one, is read as it should be. -/
def AttachmentView.HasReference (attachment : Tree Token) : Prop :=
  ∀ reference, reference? attachment = some reference → IsReference reference

namespace Grammar

open AttachmentView (HasReference)

theorem isReference_namedReference {tokens : List Token} (named : next tokens = .identifier) :
    ∀ reference ∈ (namedReference tokens).elements, IsReference reference := by
  intro reference inside
  cases tokens with
  | nil => cases named
  | cons front rest =>
    rw [namedReference, List.drop_succ_cons, List.drop_zero] at inside
    split at inside
    · rename_i isColon
      obtain rfl := List.mem_singleton.mp inside
      cases rest with
      | nil => cases isColon
      | cons colon rest =>
        have lastEq : expect .identifier rest = _ := expect_eq (by decide) rest
        simp only [Parsed.andThen, Parsed.tokens, List.take_succ_cons, List.take_zero,
          List.drop_succ_cons, List.drop_zero, lastEq]
        split
        · rename_i isLast
          cases rest with
          | nil => cases isLast
          | cons last rest => exact .qualified named isColon isLast
        · exact .unfinished named isColon
    · obtain rfl := List.mem_singleton.mp inside
      exact .simple named

/-- What stands for a name is a reference unless it is no reference to a name at all. -/
theorem isReference_nameReference {recovery : KindSet} {tokens : List Token} {element : Tree Token}
    (inside : element ∈ (nameReference recovery tokens).elements)
    (isReference : element.kind.isReference) : IsReference element := by
  rw [nameReference_eq] at inside
  split at inside
  · rename_i named
    exact isReference_namedReference named element inside
  · rw [recover] at inside
    split at inside
    · cases inside
    · obtain rfl := List.mem_singleton.mp inside
      cases isReference

theorem hasReference_attachment (sign : Token) (tokens : List Token) :
    ∀ element ∈ (attachment sign tokens).elements, HasReference element := by
  intro element inside reference found
  obtain rfl := List.mem_singleton.mp inside
  have isReference : reference.kind.isReference := by simpa using List.find?_some found
  obtain ⟨isChild, isNode⟩ := List.mem_filter.mp (List.mem_of_find?_eq_some found)
  rcases List.mem_cons.mp isChild with rfl | isChild
  · cases isNode
  rcases List.mem_append.mp isChild with inName | inMapping
  · exact isReference_nameReference inName isReference
  · rw [mapping?_eq] at inMapping
    split at inMapping
    · obtain rfl := List.mem_singleton.mp inMapping
      cases isReference
    · cases inMapping

theorem hasReference_attachments (tokens : List Token) :
    ∀ element ∈ (attachments tokens).elements, HasReference element := by
  fun_induction attachments tokens with
  | case1 => simp [Parsed.none]
  | case2 sign rest isSign first more ih =>
    intro element inside
    rcases List.mem_append.mp inside with here | later
    · exact hasReference_attachment sign rest element here
    · exact ih element later
  | case3 sign rest noSign => simp [Parsed.none]

theorem hasReference_metadata {tokens : List Token} {data : Tree Token}
    (inside : data ∈ (metadata tokens).elements) :
    ∀ attachment ∈ MetadataView.attachments data, HasReference attachment := by
  rw [metadata_eq] at inside
  split at inside
  · cases inside
  · obtain rfl := List.mem_singleton.mp inside
    intro attachment isAttachment
    obtain ⟨isChildNode, isAttachment⟩ := List.mem_filter.mp isAttachment
    have isChild := (List.mem_filter.mp isChildNode).1
    rcases List.mem_append.mp isChild with inLines | inAttachments
    · simp only [documentation] at inLines
      split at inLines
      · cases inLines
      · obtain rfl := List.mem_singleton.mp inLines
        cases isAttachment
    · exact hasReference_attachments _ attachment inAttachments

/-- A run holds no nodes but those of errors. -/
theorem noNode_plainRun {p : Kind → Bool} (other : p .error = false) (kind : Kind) (depth : Nat)
    (tokens : List Token) : NoNode p (plainRun kind depth tokens).2.elements := by
  have leaf {token : Token} {parsed : Parsed Token} (none : NoNode p parsed.elements) :
      NoNode p (parsed.cons (.leaf token)).elements :=
    (noNode_leaves [token]).append none
  induction tokens generalizing kind depth with
  | nil => rfl
  | cons token tokens ih =>
    rw [plainRun_cons]
    split
    · exact noNode_leaves [token]
    · split
      · exact leaf (ih _ _)
      · split
        · exact leaf (ih _ _)
        · split
          · exact (noNode_singleton other _).append (ih _ _)
          · split
            · exact noNode_leaves [token]
            · exact leaf (ih _ _)
        · exact leaf (ih _ _)

/-- Behind its metadata a declaration has no other metadata. -/
theorem noNode_qualified (tokens : List Token) :
    NoNode (· == .metadata) (qualified tokens).2.elements := by
  have noError : ((Kind.error == Kind.metadata) = false) := rfl
  refine (noNode_leaves _).append ?_
  generalize tokens.drop (countIn qualifiers tokens) = behind
  cases behind with
  | nil => rfl
  | cons first rest =>
    simp only
    split
    · rw [service_eq]
      split
      · exact (noNode_leaves [first]).append (noNode_plainRun noError _ _ _)
      · exact (noNode_leaves [first]).append (noNode_serviceParts rest)
    · split
      · exact noNode_plainRun noError _ _ _
      · rfl

theorem metadata_of_mem_member {tokens : List Token} {child data : Tree Token}
    (inside : child ∈ (member tokens).elements)
    (found : DeclarationView.metadata? child = some data) : data ∈ (metadata tokens).elements := by
  rw [member_eq] at inside
  obtain rfl := List.mem_singleton.mp inside
  have noOther : (qualified (metadata tokens).rest).2.elements.find? DeclarationView.isMetadata =
      none := noNode_qualified _
  rw [DeclarationView.metadata?_eq_find?, Tree.children, Parsed.andThen, List.find?_append, noOther,
    Option.or_none] at found
  exact List.mem_of_find?_eq_some found

/-- The attachments in front of a declaration have proper references. -/
theorem hasReference_items {tokens : List Token} {child data : Tree Token}
    (inside : child ∈ (items tokens).elements) (isMember : child.kind.isMember)
    (found : DeclarationView.metadata? child = some data) :
    ∀ attachment ∈ MetadataView.attachments data, HasReference attachment := by
  obtain ⟨before, after, split⟩ := List.append_of_mem inside
  obtain ⟨behind, rest, _, item, _⟩ := exists_firstItem_behind split
  cases item with
  | importDeclaration _ elements =>
    obtain rfl := List.singleton_inj.mp elements
    cases isMember
  | member elements =>
    have isElement : child ∈ (member behind).elements := by simp [elements]
    exact hasReference_metadata (metadata_of_mem_member isElement found)
  | error => cases isMember

end Grammar

/-! ## The tokens of a reference -/

theorem Tree.mem_children_of_nodeWhere? {p : Kind → Bool} {tree child : Tree Token}
    (found : tree.nodeWhere? p = some child) : child ∈ tree.children :=
  (List.mem_filter.mp (List.mem_of_find?_eq_some found)).1

theorem Tree.mem_nodesWhere {p : Kind → Bool} {tree child : Tree Token} :
    child ∈ tree.nodesWhere p ↔ child ∈ tree.children ∧ child.isNode ∧ p child.kind := by
  rw [nodesWhere, List.mem_filter, childNodes, List.mem_filter, and_assoc]

theorem SourceTree.exists_reads_of_mem_leaves {text : List Char} {token : Token}
    (inside : token ∈ (parse text).tree.leaves) (notEnd : token.kind ≠ .endOfFile) :
    ∃ after, token.Reads after := by
  obtain ⟨pieces, _, endEq, tiles, _⟩ := TokenStream.tiles_scan text
  rw [leaves_parse, TokenStream.all, List.mem_append] at inside
  rcases inside with isToken | isEnd
  · obtain ⟨front, behind, split⟩ := List.append_of_mem isToken
    rw [split, TokenStream.tiles_append] at tiles
    exact ⟨_, tiles.2.1⟩
  · rw [List.mem_singleton.mp isEnd, endEq] at notEnd
    exact absurd rfl notEnd

namespace Attachment

open DeclarationView (metadata?)
open MetadataView (attachments)

theorem IsReference.kind_ne {reference : Tree Token} (isReference : IsReference reference) :
    ∀ token ∈ reference.leaves, token.kind ≠ .endOfFile := by
  cases isReference with
  | simple isName => simp [isName]
  | unfinished isFront isColon => simp [isFront, isColon]
  | qualified isFront isColon isLast => simp [isFront, isColon, isLast]

variable {text : List Char} {declaration data attachment reference : Tree Token}

/-- The reference of an attachment in front of a declaration, and its tokens in the text. -/
theorem isReference_of_mem (isMember : declaration ∈ ModuleView.members (SourceTree.parse text).tree)
    (carries : metadata? declaration = some data) (inside : attachment ∈ attachments data)
    (found : AttachmentView.reference? attachment = some reference) :
    IsReference reference ∧ ∀ token ∈ reference.leaves, ∃ after, token.Reads after := by
  obtain ⟨isChild, isNode, isMember⟩ := Tree.mem_nodesWhere.mp isMember
  have isItem : declaration ∈ (Grammar.items (TokenStream.scan text).tokens).elements := by
    rcases List.mem_append.mp isChild with isItem | isEnd
    · exact isItem
    · rw [List.mem_singleton.mp isEnd] at isNode
      cases isNode
  have isReference :=
    Grammar.hasReference_items isItem isMember carries attachment inside reference found
  refine ⟨isReference, fun token isToken => ?_⟩
  have isPart : reference ∈ attachment.children := Tree.mem_children_of_nodeWhere? found
  have isData : data ∈ declaration.children :=
    Tree.mem_children_of_nodeWhere? (p := (· == .metadata)) carries
  have inAttachment := Tree.mem_leaves_of_mem_children isPart isToken
  have inData := Tree.mem_leaves_of_mem_children (Tree.mem_nodesWhere.mp inside).1 inAttachment
  have inDeclaration := Tree.mem_leaves_of_mem_children isData inData
  have inText := Tree.mem_leaves_of_mem_children isChild inDeclaration
  exact SourceTree.exists_reads_of_mem_leaves inText (isReference.kind_ne token isToken)

/-- Whether metadata has an attachment whose reference consists of the name of a module, a colon and
a name. -/
def Carries (moduleName name : List Char) (data : Tree Token) : Prop :=
  ∃ attachment ∈ attachments data, ∃ reference ∈ AttachmentView.reference? attachment,
    Names moduleName name reference

instance (moduleName name : List Char) (data : Tree Token) :
    Decidable (Carries moduleName name data) :=
  inferInstanceAs (Decidable (∃ attachment ∈ attachments data, _))

/-- Whether an attachment refers to a name of a module is told by its tokens, for all names, if and
only if its reference is legible. So metadata whose references are all legible carries exactly those
annotations that are found in it. -/
theorem present_iff_carries
    (isMember : declaration ∈ ModuleView.members (SourceTree.parse text).tree)
    (carries : metadata? declaration = some data) :
    (∀ attachment ∈ attachments data, ∀ reference ∈ AttachmentView.reference? attachment,
        (Legible reference ↔ ∀ moduleName name, name ≠ [] →
          (refersTo moduleName name attachment ↔ Names moduleName name reference))) ∧
      ((∀ attachment ∈ attachments data, ∀ reference ∈ AttachmentView.reference? attachment,
          Legible reference) →
        ∀ moduleName name, name ≠ [] →
          (present moduleName name (some data) ↔ Carries moduleName name data)) := by
  have single : ∀ attachment ∈ attachments data,
      ∀ reference ∈ AttachmentView.reference? attachment,
        (Legible reference ↔ ∀ moduleName name, name ≠ [] →
          (refersTo moduleName name attachment ↔ Names moduleName name reference)) := by
    intro attachment inside reference found
    obtain ⟨isReference, reads⟩ := isReference_of_mem isMember carries inside found
    simp only [refersTo, Option.mem_def.mp found]
    exact legible_iff isReference reads
  refine ⟨single, fun legible moduleName name some => ?_⟩
  simp only [present, Option.any_some, List.any_eq_true, Carries]
  refine exists_congr fun attachment => and_congr_right fun inside => ?_
  cases found : AttachmentView.reference? attachment with
  | none => simp [refersTo, found]
  | some reference =>
    have same := (single attachment inside reference found).mp
      (legible attachment inside reference found) moduleName name some
    simpa [found] using same

theorem present_iff_carries_blanks :
    ∃ declaration ∈ ModuleView.members
        (SourceTree.parse "@http : ServiceConfig\nservice T on ep {}\n".toList).tree,
      ∃ data, metadata? declaration = some data ∧
        (∀ attachment ∈ attachments data, ∀ reference ∈ AttachmentView.reference? attachment,
          Legible reference) ∧
        present "http".toList "ServiceConfig".toList (some data) := by
  have found : ∃ declaration ∈ ModuleView.members
      (SourceTree.parse "@http : ServiceConfig\nservice T on ep {}\n".toList).tree,
      ∃ data ∈ metadata? declaration,
        (∀ attachment ∈ attachments data, ∀ reference ∈ AttachmentView.reference? attachment,
          Legible reference) ∧
        Carries "http".toList "ServiceConfig".toList data := by
    decide +kernel
  obtain ⟨declaration, isMember, data, isData, legible, carries⟩ := found
  refine ⟨declaration, isMember, data, isData, legible, ?_⟩
  exact ((present_iff_carries isMember isData).2 legible _ _ (by decide)).mpr carries

/-- With a comment in front of the colon an annotation is carried and not found. -/
theorem not_present_of_comment :
    ¬∀ (text moduleName name : List Char) (declaration data : Tree Token),
      declaration ∈ ModuleView.members (SourceTree.parse text).tree →
        metadata? declaration = some data → moduleName ≠ [] → name ≠ [] →
          (present moduleName name (some data) ↔ Carries moduleName name data) := by
  intro always
  have found : ∃ declaration ∈ ModuleView.members
      (SourceTree.parse "@http // note\n:ServiceConfig\nservice T on ep {}\n".toList).tree,
      ∃ data ∈ metadata? declaration,
        Carries "http".toList "ServiceConfig".toList data ∧
          present "http".toList "ServiceConfig".toList (some data) = false := by
    decide +kernel
  obtain ⟨declaration, isMember, data, isData, carries, notFound⟩ := found
  have same := always _ "http".toList "ServiceConfig".toList declaration data isMember isData
    (by decide) (by decide)
  rw [same.mpr carries] at notFound
  cases notFound

end Attachment

end ServiceAnnotator
