import Mathlib.Computability.Language
import Mathlib.Order.CompletePartialOrder
import ServiceAnnotator.Syntax.Tree.Basic

/-!
# What nodes hold

Whatever is wrong with a text, the children of each node of its tree are of certain kinds in a
certain order. For each kind of node a language of such sequences says what its children may be,
recovery after errors included. Views of declarations rely on nothing else.
-/

open scoped Computability

namespace ServiceAnnotator

/-- What a child of a node is to the node: a token or a node of some kind. -/
inductive Part where
  | token (kind : Kind)
  | node (kind : Kind)
  deriving DecidableEq, Repr

/-! ## Languages of children -/

namespace Shape

/-- One token of a kind. -/
def token (kind : Kind) : Language Part := {[.token kind]}

/-- One token of any of some kinds. -/
def oneOf (kinds : List Kind) : Language Part := {parts | ∃ kind ∈ kinds, parts = [.token kind]}

/-- One token of any kind. -/
def anyToken : Language Part := {parts | ∃ kind, parts = [.token kind]}

/-- One node of a kind. -/
def node (kind : Kind) : Language Part := {[.node kind]}

/-- One node of any of the kinds that satisfy a condition. -/
def nodeWhere (p : Kind → Bool) : Language Part := {parts | ∃ kind, p kind ∧ parts = [.node kind]}

/-- Children that may be missing. -/
def optional (shape : Language Part) : Language Part := 1 + shape

/-- Qualifiers, if there are any. -/
def qualifiers : Language Part := (oneOf [.publicKw, .isolatedKw, .finalKw, .configurableKw])∗

/-- What stands in front of a declaration. -/
def front : Language Part := optional (node .metadata) * qualifiers

/-- A token that is kept as it is, or an error. -/
def rough : Language Part := anyToken + node .error

/-- What a module variable starts with. -/
def variableStart : Language Part := oneOf [.identifier, .leftBracket, .leftParen]

/-- A service behind its metadata and qualifiers. -/
def service : Language Part :=
  token .serviceKw * optional (nodeWhere Kind.isReference) *
    optional (node .absoluteResourcePath + token .stringLiteral) *
    optional (token .onKw * node .expressionList) * optional (node .serviceBody)

/-- A declaration of a kind behind its metadata and qualifiers. Where no declaration was found,
nothing stands there. -/
def declaration : Kind → Language Part
  | .serviceDeclaration => service
  | .functionDefinition => token .functionKw * rough∗
  | .listenerDeclaration => token .listenerKw * rough∗
  | .typeDefinition => token .typeKw * rough∗
  | .constDeclaration => token .constKw * rough∗
  | .classDefinition => optional (token .serviceKw + variableStart * rough∗) * (token .classKw * rough∗)
  | .enumDeclaration => token .enumKw * rough∗
  | .annotationDeclaration => token .annotationKw * rough∗
  | .moduleVarDeclaration => variableStart * rough∗
  | .error => 1
  | _ => 0

/-- An import, a declaration or an error. -/
def item : Language Part :=
  nodeWhere fun kind => kind == .importDeclaration || kind.isMember || kind == .error

/-- A field, a comma behind a field, or an error. -/
def fieldOrComma : Language Part := nodeWhere Kind.isField + token .comma + node .error

/-- A slash of a resource path, with a name behind it or without. -/
def segment : Language Part := token .slash * optional (token .identifier)

/-- What the nodes of a kind hold. There are no nodes of any other kind than those listed here and
those of declarations. -/
def ofKind : Kind → Language Part
  | .modulePart => item∗ * token .endOfFile
  | .importDeclaration => token .importKw * anyToken∗ * optional (token .semicolon)
  | .metadata =>
    node .documentation * (node .annotationAttachment)∗ +
      node .annotationAttachment * (node .annotationAttachment)∗
  | .documentation => token .documentationLine * (token .documentationLine)∗
  | .annotationAttachment =>
    token .atSign * optional (nodeWhere Kind.isReference + node .error) *
      optional (node .mappingConstructor)
  | .qualifiedNameReference => token .identifier * token .colon * optional (token .identifier)
  | .simpleNameReference => token .identifier
  | .absoluteResourcePath => segment * segment∗
  | .expressionList => (node .expression * token .comma)∗ * optional (node .expression)
  | .expression => anyToken * anyToken∗
  | .mappingConstructor => token .leftBrace * fieldOrComma∗ * optional (token .rightBrace)
  | .specificField =>
    oneOf [.identifier, .stringLiteral] *
      optional (token .colon * optional (node .mappingConstructor + node .expression))
  | .spreadField => token .ellipsis * optional (node .expression)
  | .serviceBody => token .leftBrace * anyToken∗ * optional (token .rightBrace)
  | .error => anyToken * anyToken∗ + node .metadata * qualifiers
  | kind => front * declaration kind

/-- No node is struck out. -/
theorem ofKind_tombstone : ofKind .tombstone = 0 := mul_zero front

/-! ## Ways to put languages together -/

theorem mem_token {kind other : Kind} (same : other = kind) : [.token other] ∈ token kind := by
  rw [same]
  rfl

theorem mem_node (kind : Kind) : [.node kind] ∈ node kind := rfl

theorem mem_anyToken (kind : Kind) : [.token kind] ∈ anyToken := ⟨kind, rfl⟩

theorem oneOf_singleton (kind : Kind) : oneOf [kind] = token kind := by
  ext parts
  constructor
  · rintro ⟨other, found, rfl⟩
    exact mem_token (List.mem_singleton.mp found)
  · rintro rfl
    exact ⟨kind, List.mem_singleton_self kind, rfl⟩

theorem node_le_nodeWhere {p : Kind → Bool} {kind : Kind} (isSuch : p kind) :
    node kind ≤ nodeWhere p := by
  rintro _ rfl
  exact ⟨kind, isSuch, rfl⟩

variable {left right shape : Language Part}

theorem le_optional : shape ≤ optional shape := le_sup_right

theorem one_le_optional : 1 ≤ optional shape := le_sup_left

theorem le_mul_optional : left ≤ left * optional right := by
  calc left = left * 1 := (mul_one left).symm
    _ ≤ left * optional right := mul_le_mul_right one_le_optional left

theorem le_optional_mul : right ≤ optional left * right := by
  calc right = 1 * right := (one_mul right).symm
    _ ≤ optional left * right := mul_le_mul_left one_le_optional right

theorem le_mul_kstar : left ≤ left * right∗ := by
  calc left = left * 1 := (mul_one left).symm
    _ ≤ left * right∗ := mul_le_mul_right one_le_kstar left

/-- Something behind a repetition also stands behind none. -/
theorem le_kstar_mul : right ≤ left∗ * right := by
  calc right = 1 * right := (one_mul right).symm
    _ ≤ left∗ * right := mul_le_mul_left one_le_kstar right

/-- One more in front of a repetition. -/
theorem mul_kstar_mul_le : left * (left∗ * right) ≤ left∗ * right := by
  rw [← mul_assoc]
  exact mul_le_mul_left mul_kstar_le_kstar right

/-- A repetition that is not empty starts with one of its parts. -/
theorem mem_mul_kstar {parts : List Part} (inside : parts ∈ shape∗) (some : parts ≠ []) :
    parts ∈ shape * shape∗ := by
  rw [← Language.one_add_self_mul_kstar_eq_kstar] at inside
  exact inside.resolve_left some

/-- A sequence of children, each of which a language allows alone. -/
theorem mem_kstar_of_forall {parts : List Part} (each : ∀ part ∈ parts, [part] ∈ shape) :
    parts ∈ shape∗ := by
  induction parts with
  | nil => exact Language.nil_mem_kstar _
  | cons part parts ih =>
    have behind : parts ∈ shape∗ := ih fun other inside => each other (.tail _ inside)
    have more : shape * shape∗ ≤ shape∗ := mul_kstar_le_kstar
    exact more (Language.append_mem_mul (each part (.head _)) behind)

end Shape

/-! ## Trees in shape -/

namespace Tree

variable {α : Type}

mutual

/-- All nodes of a tree, each in front of the nodes inside it. -/
def nodes : Tree α → List (Tree α)
  | .leaf _ => []
  | .node kind children => .node kind children :: nodesOf children

/-- All nodes of trees that follow each other. -/
def nodesOf : List (Tree α) → List (Tree α)
  | [] => []
  | tree :: trees => nodes tree ++ nodesOf trees

end

theorem mem_nodesOf {node : Tree α} {trees : List (Tree α)} :
    node ∈ nodesOf trees ↔ ∃ tree ∈ trees, node ∈ tree.nodes := by
  induction trees with
  | nil => simp [nodesOf]
  | cons tree trees ih => simp [nodesOf, ih]

variable [Kinded α]

/-- What a tree is as a child. -/
def part : Tree α → Part
  | .leaf item => .token (Kinded.kind item)
  | .node kind _ => .node kind

/-- Whether each node holds what nodes of its kind hold. -/
def Fits (tree : Tree α) : Prop :=
  ∀ node ∈ tree.nodes, node.children.map part ∈ Shape.ofKind node.kind

theorem fits_leaf (item : α) : (leaf item).Fits := by
  intro node inside
  rw [nodes] at inside
  cases inside

theorem fits_node_iff (kind : Kind) (children : List (Tree α)) :
    (node kind children).Fits ↔
      children.map part ∈ Shape.ofKind kind ∧ ∀ child ∈ children, child.Fits := by
  simp only [Fits, nodes, List.forall_mem_cons, mem_nodesOf]
  constructor
  · rintro ⟨here, below⟩
    exact ⟨here, fun child isChild node inside => below node ⟨child, isChild, inside⟩⟩
  · rintro ⟨here, below⟩
    exact ⟨here, fun node ⟨child, isChild, inside⟩ => below child isChild node inside⟩

/-- In a tree in shape no node is struck out. -/
theorem Fits.kind_ne_tombstone {tree : Tree α} (fits : tree.Fits) :
    ∀ node ∈ tree.nodes, node.kind ≠ .tombstone := by
  intro node inside struck
  have held := fits node inside
  rw [struck, Shape.ofKind_tombstone] at held
  exact held

end Tree

end ServiceAnnotator
