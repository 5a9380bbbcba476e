import ServiceAnnotator.Proofs.Tree.Shape

/-!
# What stands at the top level

In a tree in shape imports stand among the children of the module and nowhere else, and the module
is not a part of anything.
-/

open scoped Computability

namespace ServiceAnnotator

/-! ## Languages over a part of their alphabet -/

/-- Whether all letters of the words of a language satisfy a condition. -/
def OnlyOf {α : Type} (p : α → Prop) (language : Language α) : Prop :=
  ∀ word ∈ language, ∀ letter ∈ word, p letter

namespace OnlyOf

variable {α : Type} {p : α → Prop} {left right language : Language α}

theorem zero : OnlyOf p 0 := fun _ inside => inside.elim

theorem one : OnlyOf p 1 := by
  rintro _ rfl letter inside
  cases inside

theorem letter {letter : α} (isSuch : p letter) : OnlyOf p ({[letter]} : Language α) := by
  rintro _ rfl other inside
  rwa [List.mem_singleton.mp inside]

theorem add (first : OnlyOf p left) (second : OnlyOf p right) : OnlyOf p (left + right) := by
  rintro word (inside | inside)
  · exact first word inside
  · exact second word inside

theorem mul (first : OnlyOf p left) (second : OnlyOf p right) : OnlyOf p (left * right) := by
  rintro _ ⟨front, inFront, back, inBack, rfl⟩ letter inside
  rcases List.mem_append.mp inside with inside | inside
  · exact first front inFront letter inside
  · exact second back inBack letter inside

theorem kstar (each : OnlyOf p language) : OnlyOf p language∗ := by
  rintro _ ⟨words, rfl, allowed⟩ letter inside
  obtain ⟨word, isWord, inside⟩ := List.mem_flatten.mp inside
  exact each word (allowed word isWord) letter inside

end OnlyOf

/-! ## Children below the top level -/

namespace Shape

/-- Tokens, and nodes that are neither modules nor imports. -/
def IsInner : Part → Prop
  | .token _ => True
  | .node kind => kind ≠ .modulePart ∧ kind ≠ .importDeclaration

variable {p : Part → Prop} {shape : Language Part}

theorem onlyOf_optional (only : OnlyOf p shape) : OnlyOf p (optional shape) := .add .one only

theorem onlyOf_nodeWhere {q : Kind → Bool} (each : ∀ kind, q kind → p (.node kind)) :
    OnlyOf p (nodeWhere q) := by
  rintro _ ⟨kind, isSuch, rfl⟩ part inside
  rw [List.mem_singleton.mp inside]
  exact each kind isSuch

theorem onlyOf_oneOf (kinds : List Kind) : OnlyOf IsInner (oneOf kinds) := by
  rintro _ ⟨kind, _, rfl⟩ part inside
  rw [List.mem_singleton.mp inside]
  trivial

theorem onlyOf_anyToken : OnlyOf IsInner anyToken := by
  rintro _ ⟨kind, rfl⟩ part inside
  rw [List.mem_singleton.mp inside]
  trivial

theorem onlyOf_token (kind : Kind) : OnlyOf IsInner (token kind) := .letter trivial

theorem onlyOf_node (kind : Kind) (noModule : kind ≠ .modulePart)
    (noImport : kind ≠ .importDeclaration) : OnlyOf IsInner (node kind) := .letter ⟨noModule, noImport⟩

theorem onlyOf_innerNode {q : Kind → Bool} (noModule : q .modulePart = false)
    (noImport : q .importDeclaration = false) : OnlyOf IsInner (nodeWhere q) := by
  refine onlyOf_nodeWhere fun kind isSuch => ⟨?_, ?_⟩
  · rintro rfl
    exact absurd isSuch (Bool.eq_false_iff.mp noModule)
  · rintro rfl
    exact absurd isSuch (Bool.eq_false_iff.mp noImport)

theorem onlyOf_reference : OnlyOf IsInner (nodeWhere Kind.isReference) := onlyOf_innerNode rfl rfl

theorem onlyOf_field : OnlyOf IsInner (nodeWhere Kind.isField) := onlyOf_innerNode rfl rfl

theorem onlyOf_front : OnlyOf IsInner front :=
  .mul (onlyOf_optional (onlyOf_node _ (by decide) (by decide))) (.kstar (onlyOf_oneOf _))

theorem onlyOf_service : OnlyOf IsInner service := by
  have path := OnlyOf.add (onlyOf_node .absoluteResourcePath (by decide) (by decide))
    (onlyOf_token .stringLiteral)
  have listeners := (onlyOf_token .onKw).mul
    (onlyOf_node .expressionList (by decide) (by decide))
  have body := onlyOf_node .serviceBody (by decide) (by decide)
  exact ((((onlyOf_token _).mul (onlyOf_optional onlyOf_reference)).mul (onlyOf_optional path)).mul
    (onlyOf_optional listeners)).mul (onlyOf_optional body)

theorem onlyOf_declaration (kind : Kind) : OnlyOf IsInner (declaration kind) := by
  have roughRun : OnlyOf IsInner rough∗ :=
    (onlyOf_anyToken.add (onlyOf_node _ (by decide) (by decide))).kstar
  have variableRun : OnlyOf IsInner (variableStart * rough∗) := (onlyOf_oneOf _).mul roughRun
  cases kind
  case serviceDeclaration => exact onlyOf_service
  case classDefinition =>
    exact (onlyOf_optional ((onlyOf_token _).add variableRun)).mul ((onlyOf_token _).mul roughRun)
  case moduleVarDeclaration => exact variableRun
  case error => exact .one
  all_goals first | exact (onlyOf_token _).mul roughRun | exact .zero

/-- Nothing but a module holds imports, and nothing holds a module. -/
theorem onlyOf_ofKind {kind : Kind} (noModule : kind ≠ .modulePart) : OnlyOf IsInner (ofKind kind) := by
  have attachment := onlyOf_node .annotationAttachment (by decide) (by decide)
  have mapping := onlyOf_node .mappingConstructor (by decide) (by decide)
  have expression := onlyOf_node .expression (by decide) (by decide)
  have error := onlyOf_node .error (by decide) (by decide)
  have anyTokens := onlyOf_anyToken.kstar
  cases kind
  case modulePart => exact absurd rfl noModule
  case importDeclaration | serviceBody =>
    exact ((onlyOf_token _).mul anyTokens).mul (onlyOf_optional (onlyOf_token _))
  case metadata =>
    have documentation := onlyOf_node .documentation (by decide) (by decide)
    exact (documentation.mul attachment.kstar).add (attachment.mul attachment.kstar)
  case documentation => exact (onlyOf_token _).mul (onlyOf_token _).kstar
  case annotationAttachment =>
    exact ((onlyOf_token _).mul (onlyOf_optional (onlyOf_reference.add error))).mul
      (onlyOf_optional mapping)
  case qualifiedNameReference =>
    exact ((onlyOf_token _).mul (onlyOf_token _)).mul (onlyOf_optional (onlyOf_token _))
  case simpleNameReference => exact onlyOf_token _
  case absoluteResourcePath =>
    have segment : OnlyOf IsInner segment :=
      (onlyOf_token _).mul (onlyOf_optional (onlyOf_token _))
    exact segment.mul segment.kstar
  case expressionList =>
    exact (expression.mul (onlyOf_token _)).kstar.mul (onlyOf_optional expression)
  case expression => exact onlyOf_anyToken.mul anyTokens
  case mappingConstructor =>
    have part : OnlyOf IsInner fieldOrComma := (onlyOf_field.add (onlyOf_token _)).add error
    exact ((onlyOf_token _).mul part.kstar).mul (onlyOf_optional (onlyOf_token _))
  case specificField =>
    have value := (onlyOf_token .colon).mul (onlyOf_optional (mapping.add expression))
    exact (onlyOf_oneOf _).mul (onlyOf_optional value)
  case spreadField => exact (onlyOf_token _).mul (onlyOf_optional expression)
  case error =>
    have metadata := onlyOf_node .metadata (by decide) (by decide)
    exact (onlyOf_anyToken.mul anyTokens).add (metadata.mul (onlyOf_oneOf _).kstar)
  all_goals exact onlyOf_front.mul (onlyOf_declaration _)

theorem onlyOf_modulePart : OnlyOf (· ≠ .node .modulePart) (ofKind .modulePart) := by
  refine .mul (.kstar (onlyOf_nodeWhere ?_)) (.letter Part.noConfusion)
  rintro kind isItem same
  obtain rfl : kind = .modulePart := Part.node.inj same
  cases isItem

end Shape

/-! ## Nodes below the top level -/

namespace Tree

variable {α : Type}

/-- The nodes of a tree are the tree itself, if it is no leaf, and the nodes of its children. -/
theorem mem_nodes_iff {tree node : Tree α} :
    node ∈ tree.nodes ↔ tree.isNode ∧ (node = tree ∨ ∃ child ∈ tree.children, node ∈ child.nodes) := by
  cases tree with
  | leaf item => simp [nodes, isNode]
  | node kind below => simp [nodes, isNode, children, mem_nodesOf]

variable [Kinded α]

theorem part_of_isNode {tree : Tree α} (isNode : tree.isNode) : tree.part = .node tree.kind := by
  cases tree with
  | leaf item => cases isNode
  | node kind below => rfl

theorem Fits.child {tree child : Tree α} (fits : tree.Fits) (isChild : child ∈ tree.children) :
    child.Fits := by
  cases tree with
  | leaf item => cases isChild
  | node kind children => exact ((fits_node_iff kind children).mp fits).2 child isChild

theorem Fits.part_child {p : Part → Prop} {tree child : Tree α} (fits : tree.Fits)
    (only : OnlyOf p (Shape.ofKind tree.kind)) (isChild : child ∈ tree.children) : p child.part := by
  cases tree with
  | leaf item => cases isChild
  | node kind children =>
    have held := ((fits_node_iff kind children).mp fits).1
    exact only _ held _ (List.mem_map_of_mem isChild)

/-- Below a node that is no module there are neither imports nor modules. -/
theorem Fits.below : ∀ {tree : Tree α}, tree.Fits → tree.kind ≠ .modulePart →
    ∀ child ∈ tree.children, ∀ node ∈ child.nodes, Shape.IsInner (.node node.kind)
  | .leaf _, _, _ => by simp [children]
  | .node kind children, fits, noModule => by
    intro child isChild node inside
    have inner := fits.part_child (Shape.onlyOf_ofKind noModule) isChild
    obtain ⟨isNode, here | ⟨grandchild, below, within⟩⟩ := mem_nodes_iff.mp inside
    · rwa [here, ← part_of_isNode isNode]
    · rw [part_of_isNode isNode] at inner
      exact (fits.child isChild).below inner.1 grandchild below node within
termination_by tree => tree
decreasing_by
  have smaller : sizeOf child < sizeOf children := List.sizeOf_lt_of_mem isChild
  simp only [Tree.node.sizeOf_spec]
  omega

/-- The imports of a module in shape are among its children. -/
theorem Fits.mem_children_of_import {children : List (Tree α)} {node : Tree α}
    (fits : (Tree.node .modulePart children).Fits)
    (inside : node ∈ (Tree.node .modulePart children).nodes)
    (isImport : node.kind = .importDeclaration) : node ∈ children ∧ node.isNode := by
  obtain ⟨_, rfl | ⟨child, isChild, inside⟩⟩ := mem_nodes_iff.mp inside
  · cases isImport
  · obtain ⟨isNode, rfl | ⟨grandchild, below, within⟩⟩ := mem_nodes_iff.mp inside
    · exact ⟨isChild, isNode⟩
    · have noModule := fits.part_child Shape.onlyOf_modulePart isChild
      rw [part_of_isNode isNode] at noModule
      have inner := (fits.child isChild).below (fun same => noModule (congrArg Part.node same))
        grandchild below node within
      exact absurd isImport inner.2

end Tree

end ServiceAnnotator
