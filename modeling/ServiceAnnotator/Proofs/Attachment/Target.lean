import ServiceAnnotator.Proofs.Attachment.Reread

/-!
# Services that get the annotation

The type of a service is a name behind the keyword, so its tokens are known up to one that recovery
may have left out. What the pass puts into such a service shows in its tokens at one place only.
-/

namespace ServiceAnnotator

namespace ServiceView

variable {α : Type} [Kinded α]

/-- Whether a child of a declaration is a reference to a name. -/
def isReference (child : Tree α) : Bool := child.isNode && child.kind.isReference

theorem type?_eq_find? (node : Tree α) : type? node = node.children.find? isReference := by
  simp only [type?, Tree.nodeWhere?, Tree.childNodes, List.find?_filter]
  congr 1
  funext child
  rw [Bool.eq_iff_iff]
  simp [isReference]

end ServiceView

namespace Grammar

open ServiceView (isReference)

variable {α : Type} [Kinded α]

/-- Elements without a node of certain kinds. -/
def NoNode (p : Kind → Bool) (elements : List (Tree α)) : Prop :=
  elements.find? (fun element => element.isNode && p element.kind) = none

variable {p : Kind → Bool}

theorem NoNode.append {left right : List (Tree α)} (noLeft : NoNode p left)
    (noRight : NoNode p right) : NoNode p (left ++ right) := by
  rw [NoNode, List.find?_append, noLeft, noRight]
  rfl

theorem noNode_leaves (items : List α) : NoNode p (items.map Tree.leaf) := by
  simp [NoNode, Tree.isNode]

theorem noNode_singleton {kind : Kind} (other : p kind = false) (children : List (Tree α)) :
    NoNode p [Tree.node kind children] := by
  simp [NoNode, Tree.kind, other]

theorem noNode_metadata (other : p .metadata = false) (tokens : List α) :
    NoNode p (metadata tokens).elements := by
  rw [metadata_eq]
  split
  · rfl
  · exact noNode_singleton other _

/-- Behind its type a service has no nodes but its path, its listeners and its body. -/
theorem elements_serviceParts (header : List α) :
    ∃ others, (serviceParts header).elements = (serviceType header).elements ++ others ∧
      ∀ p : Kind → Bool, p .absoluteResourcePath = false → p .expressionList = false →
        p .serviceBody = false → NoNode p others := by
  let path := attachPoint (serviceType header).rest
  let clause := listenerClause path.rest
  refine ⟨path.elements ++ (clause.elements ++ (serviceBody clause.rest).elements), ?_, ?_⟩
  · simp [serviceParts, serviceHeader, Parsed.andThen, path, clause]
  · intro p noPath noList noBody
    refine NoNode.append ?_ (NoNode.append ?_ ?_)
    · simp only [path, attachPoint]
      split
      · exact noNode_singleton noPath _
      · split
        · exact noNode_leaves _
        · rfl
    · simp only [clause, listenerClause]
      split
      · exact (noNode_leaves _).append (noNode_singleton noList _)
      · rfl
    · simp only [serviceBody]
      split
      · exact noNode_singleton noBody _
      · rfl

/-- A reference that starts with an identifier has the tokens of a name. -/
theorem elements_namedReference {header : List Token} (named : next header = .identifier) :
    ∃ kind children, kind.isReference ∧
      (namedReference header).elements = [.node kind children] ∧
      NameTokens (Tree.leavesOf children) := by
  cases header with
  | nil => cases named
  | cons name rest =>
    have isName : name.kind = .identifier := named
    rw [namedReference, List.drop_succ_cons, List.drop_zero]
    cases rest with
    | nil => exact ⟨_, _, rfl, rfl, by simpa using .simple isName⟩
    | cons colon rest =>
      split
      · rename_i isColon
        cases rest with
        | nil => exact ⟨_, _, rfl, rfl, by simpa using .unfinished isName isColon⟩
        | cons last rest =>
          by_cases isLast : last.kind = .identifier
          · have found : expect .identifier (last :: rest) = ⟨[.leaf last], [], rest⟩ := if_pos isLast
            refine ⟨.qualifiedNameReference, [.leaf name, .leaf colon, .leaf last], rfl, ?_, ?_⟩
            · simp [Parsed.wrap, Parsed.andThen, Parsed.tokens, found]
            · simpa using .qualified isName isColon isLast
          · have missing : expect .identifier (last :: rest) =
                .problem (.expected .identifier) (last :: rest) := if_neg isLast
            refine ⟨.qualifiedNameReference, [.leaf name, .leaf colon], rfl, ?_, ?_⟩
            · simp [Parsed.wrap, Parsed.andThen, Parsed.tokens, Parsed.problem, missing]
            · simpa using .unfinished isName isColon
      · exact ⟨.simpleNameReference, [.leaf name], rfl, rfl, by simpa using .simple isName⟩

/-- The type of a service is the name that its header starts with. -/
theorem exists_of_find?_serviceParts {header : List Token} {type : Tree Token}
    (found : (serviceParts header).elements.find? isReference = some type) :
    NameTokens type.leaves ∧ header = type.leaves ++ (serviceType header).rest := by
  obtain ⟨others, elementsEq, noNode⟩ := elements_serviceParts header
  have noReference : others.find? isReference = none := noNode Kind.isReference rfl rfl rfl
  have covered := (composed_serviceType header).covers
  rw [elementsEq, List.find?_append, noReference, Option.or_none] at found
  by_cases named : next header = .identifier
  · obtain ⟨kind, children, _, elements, isName⟩ := elements_namedReference named
    have typeEq : (serviceType header).elements = [.node kind children] := by
      rw [serviceType, if_pos named, nameReference_eq, if_pos named, elements]
    rw [typeEq] at found
    obtain rfl : Tree.node kind children = type :=
      List.mem_singleton.mp (List.mem_of_find?_eq_some found) |>.symm
    rw [Parsed.Covers, typeEq, Tree.leavesOf_cons, Tree.leavesOf_nil, List.append_nil] at covered
    exact ⟨by simpa using isName, covered.symm⟩
  · rw [serviceType, if_neg named] at found
    cases found

/-- Behind its keyword a service has no metadata. -/
theorem noNode_serviceParts (header : List Token) :
    NoNode (· == .metadata) (serviceParts header).elements := by
  obtain ⟨others, elementsEq, noNode⟩ := elements_serviceParts header
  rw [elementsEq]
  refine NoNode.append ?_ (noNode _ rfl rfl rfl)
  rw [serviceType]
  split
  · rename_i named
    obtain ⟨kind, children, isReference, elements, _⟩ := elements_namedReference named
    rw [nameReference_eq, if_pos named, elements]
    apply noNode_singleton
    revert isReference
    cases kind <;> decide
  · rfl

end Grammar

namespace Attachment

open DeclarationView (isMetadata metadata?)

/-- What is put into the metadata of a declaration shows in its tokens at one place. Only its first
token may get other trivia in front. -/
theorem exists_leaves_withMetadata (kind : Kind) (children : List (Tree Token)) :
    ∃ front leading behind, ∀ (added : Tree Token) (sign : Token) (others : List Token),
      added.leaves = sign :: others → sign.leading = [] →
        (ServiceView.withMetadata (mergeInto (metadata? (.node kind children)) added)
          (.node kind children)).leaves = front ++ sign.withLeading leading :: others ++ behind := by
  cases found : metadata? (.node kind children) with
  | none =>
    refine ⟨[], ServiceView.leadingTrivia (.node kind children),
      (Tree.leavesOf children).modifyHead Token.withoutLeading, ?_⟩
    intro added sign others addedLeaves bare
    have metadataLeaves : (mergeInto none added).leaves = sign :: others := by
      simpa [mergeInto, Fragment.metadata] using addedLeaves
    rw [ServiceView.leaves_withMetadata kind children metadataLeaves bare found]
    rfl
  | some old =>
    obtain ⟨isOld, before, after, split, first⟩ := ServiceView.exists_split_of_metadata? found
    have childrenEq : children = before ++ old :: after := split
    cases old with
    | leaf token => simp [isMetadata, Tree.isNode] at isOld
    | node oldKind parts =>
      refine ⟨Tree.leavesOf before ++ Tree.leavesOf parts, [], Tree.leavesOf after, ?_⟩
      intro added sign others addedLeaves bare
      have signEq : sign.withLeading [] = sign := by
        rw [← bare, Token.withLeading_leading]
      rw [childrenEq, ServiceView.withMetadata_append _ _ isOld first, signEq]
      simp [mergeInto, Tree.append, Tree.withChildren, Tree.children, addedLeaves]

end Attachment

end ServiceAnnotator
