import ServiceAnnotator.Attachment.Service

/-!
# The pass on a module, child by child

The pass looks at one child of a module at a time. What it makes of a child depends on that child
alone, and a module keeps the number and the order of its children.
-/

namespace ServiceAnnotator

namespace ModuleView

variable {α : Type} [Kinded α]

theorem members_node (kind : Kind) (children : List (Tree α)) :
    members (.node kind children) = children.filter isMember := by
  simp only [members, Tree.nodesWhere, Tree.childNodes, Tree.children, List.filter_filter]
  congr 1
  funext child
  rw [isMember, Bool.and_comm]

/-- Replacing each declaration by its image under a function keeps all other children. -/
theorem replaceMembers_map (f : Tree α → Tree α) (children : List (Tree α)) :
    replaceMembers children ((children.filter isMember).map f) =
      some (children.map fun child => if isMember child then f child else child) := by
  induction children with
  | nil => simp [replaceMembers]
  | cons child children ih =>
    by_cases member : isMember child <;> simp [replaceMembers, member, ih]

theorem mem_services {kind : Kind} {children : List (Tree α)} {child : Tree α} :
    child ∈ services (.node kind children) ↔
      child ∈ children ∧ child.isNode ∧ child.kind = .serviceDeclaration := by
  simp [services, Tree.nodesWhere, Tree.childNodes, Tree.children, and_comm]

end ModuleView

namespace Attachment

/-- A service is annotated if and only if it has a type and lacks the annotation. -/
theorem annotate?_eq_none_iff (service : Tree Token) :
    annotate? service = none ↔ isMissing service = false := by
  unfold annotate? isMissing
  cases ServiceView.type? service with
  | none => simp
  | some type =>
    by_cases carried : present annotationModule annotationName (DeclarationView.metadata? service)
    · simp [carried]
    · simp [carried]

/-- What the pass makes of a child of a module. -/
def annotateChild (child : Tree Token) : Tree Token :=
  if child.isNode then annotateMember child else child

/-- Whether a child of a module is a service that gets the annotation. -/
def getsAttachment (child : Tree Token) : Bool :=
  child.isNode && child.kind == .serviceDeclaration && isMissing child

theorem annotateChild_eq_self {child : Tree Token} (kept : getsAttachment child = false) :
    annotateChild child = child := by
  unfold annotateChild annotateMember
  split
  · split
    · have present : isMissing child = false := by
        simp_all [getsAttachment]
      rw [(annotate?_eq_none_iff child).mpr present, Option.getD_none]
    · rfl
  · rfl

theorem annotateChild_eq {child annotated : Tree Token} (isNode : child.isNode)
    (isService : child.kind = .serviceDeclaration) (changed : annotate? child = some annotated) :
    annotateChild child = annotated := by
  simp [annotateChild, annotateMember, isNode, isService, changed]

/-- A child that gets the annotation is a node with a type. -/
theorem exists_of_getsAttachment {child : Tree Token} (gets : getsAttachment child) :
    ∃ children type, child = .node .serviceDeclaration children ∧
      ServiceView.type? child = some type := by
  simp only [getsAttachment, isMissing, Bool.and_eq_true, beq_iff_eq,
    Option.isSome_iff_exists] at gets
  obtain ⟨⟨isNode, isService⟩, ⟨type, typed⟩, _⟩ := gets
  cases child with
  | leaf token => cases isNode
  | node kind children =>
    obtain rfl : kind = .serviceDeclaration := isService
    exact ⟨children, type, rfl, typed⟩

theorem annotateChild_eq_of_gets {child type : Tree Token} (gets : getsAttachment child)
    (typed : ServiceView.type? child = some type) :
    annotateChild child = ServiceView.withMetadata
      (mergeInto (DeclarationView.metadata? child)
        (Fragment.withLineBreak (lineBreak child) (ofField (field type))))
      child := by
  simp only [getsAttachment, isMissing, Bool.and_eq_true, beq_iff_eq, Bool.not_eq_true'] at gets
  obtain ⟨⟨isNode, isService⟩, _, missing⟩ := gets
  apply annotateChild_eq isNode isService
  simp [annotate?, typed, missing]

/-- Declarations are the only children that the pass may change. -/
theorem annotateChild_eq_ite (child : Tree Token) :
    annotateChild child = if ModuleView.isMember child then annotateMember child else child := by
  unfold annotateChild ModuleView.isMember
  by_cases isNode : child.isNode
  · by_cases isService : child.kind = .serviceDeclaration
    · simp [isNode, isService, Kind.isMember]
    · simp [annotateMember, isNode, isService]
  · simp [isNode]

/-- Every declaration finds its place in the module again. -/
theorem withMembers_annotateMember (children : List (Tree Token)) :
    ModuleView.withMembers
        ((ModuleView.members (.node .modulePart children)).map annotateMember)
        (.node .modulePart children) =
      some (.node .modulePart (children.map annotateChild)) := by
  have replaced := ModuleView.replaceMembers_map annotateMember children
  simp only [← annotateChild_eq_ite] at replaced
  rw [ModuleView.withMembers, ModuleView.members_node, Tree.children, replaced, Option.map_some]

/-- A module is annotated if one of its children gets the annotation. -/
theorem annotateModule?_modulePart (children : List (Tree Token)) :
    annotateModule? (.node .modulePart children) =
      if children.any getsAttachment then some (.node .modulePart (children.map annotateChild))
      else none := by
  have services : (ModuleView.services (.node .modulePart children)).any isMissing =
      children.any getsAttachment := by
    rw [Bool.eq_iff_iff, List.any_eq_true, List.any_eq_true]
    simp only [ModuleView.mem_services, getsAttachment, Bool.and_eq_true, beq_iff_eq, and_assoc]
  rw [annotateModule?, services, withMembers_annotateMember]
  simp [Tree.isNode, Tree.kind]

/-- The pass changes a module child by child. -/
theorem annotateTree_modulePart (children : List (Tree Token)) :
    annotateTree (.node .modulePart children) =
      .node .modulePart (children.map annotateChild) := by
  rw [annotateTree, annotateModule?_modulePart]
  split
  next => rfl
  next none =>
    have kept : ∀ child ∈ children, annotateChild child = child := by
      intro child inside
      apply annotateChild_eq_self
      simp only [List.any_eq_true, not_exists, not_and, Bool.not_eq_true] at none
      exact none child inside
    rw [Option.getD_none, List.map_congr_left kept, List.map_id']

end Attachment

end ServiceAnnotator
