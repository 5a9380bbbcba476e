import ServiceAnnotator.Proofs.Attachment.Module
import ServiceAnnotator.Proofs.Attachment.Service
import ServiceAnnotator.Proofs.Text.Insertion
import ServiceAnnotator.Proofs.Tree.Placement

/-!
# The pass as an insertion of text

Seen from the text of a module, the pass inserts one line for each service that gets the annotation
and leaves every other byte in its place. The line goes behind the metadata of the service; without
metadata it goes between the trivia in front of the service and its first token.
-/

namespace ServiceAnnotator.Attachment

open Text (Insertion insert? insertFrom?)
open DeclarationView (isMetadata metadata?)

/-! ## What is inserted and where -/

/-- The line break that ends the first line of a text: a line feed, with a carriage return in front
if there is one directly before it. -/
def firstLineBreak (text : List Char) : List Char :=
  if '\n' ∈ text ∧ (text.takeWhile (· != '\n')).getLast? = some '\r' then ['\r', '\n'] else ['\n']

/-- The position at which the annotation of a service goes into the text. -/
def insertionPoint (service : Place) : Nat :=
  match service.children.find? fun child => isMetadata child.element with
  | some metadata => metadata.span.stop
  | none => (service.tokens.head?.map fun first => first.lexemeSpan.start).getD service.start

/-- The line that annotates a service of the given type. -/
def insertedLine (service type : Tree Token) : List Char :=
  "@http:ServiceConfig \x7bserviceType: ".toList ++ type.trimmedText ++
    '\x7d' :: firstLineBreak service.text

/-- The insertion that a child of a module calls for, which only a service with a type and without
the annotation does. -/
def insertion? (child : Place) : Option Insertion :=
  if child.element.isNode ∧ child.element.kind = .serviceDeclaration ∧
      present "http".toList "ServiceConfig".toList (metadata? child.element) = false then
    (ServiceView.type? child.element).map fun type =>
      ⟨insertionPoint child, insertedLine child.element type⟩
  else
    none

/-- The insertions that the children of a module call for. -/
def insertions (root : Tree Token) : List Insertion :=
  (Place.root root).children.filterMap insertion?

/-! ## One service -/

theorem usesCarriageReturn_eq (text : List Char) :
    usesCarriageReturn text =
      decide ('\n' ∈ text ∧ (text.takeWhile (· != '\n')).getLast? = some '\r') := by
  fun_induction usesCarriageReturn text with
  | case1 => rfl
  | case2 cs => simp
  | case3 cs => simp
  | case4 c cs noFeed noReturn ih =>
    have notFeed : c ≠ '\n' := noFeed
    rw [ih, decide_eq_decide, List.takeWhile_cons, if_pos (by simpa using notFeed)]
    cases cs with
    | nil => simp [notFeed.symm]
    | cons d ds =>
      by_cases feed : d = '\n'
      · subst feed
        have notReturn : c ≠ '\r' := fun same => noReturn ds same rfl
        simp [notReturn]
      · rw [List.takeWhile_cons, if_pos (by simpa using feed), List.getLast?_cons_cons]
        simp [notFeed.symm]

theorem lineBreak_eq (service : Tree Token) : lineBreak service = firstLineBreak service.text := by
  simp [lineBreak, firstLineBreak, usesCarriageReturn_eq]

/-- The annotation of a service prints as the line to be inserted. -/
theorem text_ofField_lineBreak (service type : Tree Token) :
    (Fragment.withLineBreak (lineBreak service) (ofField (field type))).text =
      insertedLine service type := by
  rw [text_ofField, lineBreak_eq]
  unfold insertedLine
  rfl

theorem leaves_ne_nil_ofField (service type : Tree Token) :
    ∃ behind, (Fragment.withLineBreak (lineBreak service) (ofField (field type))).leaves =
      .bare .atSign "@".toList :: behind := by
  rw [leaves_ofField]
  exact ⟨_, rfl⟩

/-- The first metadata of a declaration lies behind the children in front of it. -/
theorem find?_childrenFrom (place : Place) (index start : Nat) {before : List (Tree Token)}
    (after : List (Tree Token)) {old : Tree Token} (isOld : isMetadata old)
    (first : ∀ child ∈ before, isMetadata child = false) :
    ∃ found, ((place.childrenFrom index start (before ++ old :: after)).find?
        fun child => isMetadata child.element) = some found ∧
      found.span.stop = start + Tree.lengthOf before + old.byteLength := by
  induction before generalizing index start with
  | nil =>
    refine ⟨⟨old, start, ⟨place.element, place.start, index⟩ :: place.steps⟩, ?_, ?_⟩
    · simp [Place.childrenFrom, isOld]
    · simp [Place.span, Span.ofLength]
  | cons child before ih =>
    obtain ⟨found, search, stop⟩ := ih (index + 1) (start + child.byteLength)
      fun other inside => first other (by simp [inside])
    refine ⟨found, ?_, ?_⟩
    · rw [List.cons_append, Place.childrenFrom, List.find?_cons_of_neg, search]
      simp [first child (by simp)]
    · rw [stop, Tree.lengthOf_cons, Nat.add_assoc start]

theorem find?_childrenFrom_eq_none (place : Place) (index start : Nat)
    {children : List (Tree Token)} (none : children.find? isMetadata = none) :
    ((place.childrenFrom index start children).find? fun child => isMetadata child.element) =
      .none := by
  rw [← place.map_element_childrenFrom index start children, List.find?_map,
    Option.map_eq_none_iff] at none
  exact none

/-- Where there is no metadata, the annotation goes between the trivia in front of the service and
its first token. -/
theorem head?_tokens_start (service : Place) :
    (service.tokens.head?.map fun first => first.lexemeSpan.start).getD service.start =
      service.start + (ServiceView.leadingTrivia service.element).byteLength := by
  rw [service.tokens_eq, ServiceView.leadingTrivia, Tree.firstLeaf?]
  cases service.element.leaves with
  | nil => simp [PlacedToken.sequence, Trivia.byteLength]
  | cons token tokens =>
    simp [PlacedToken.sequence, PlacedToken.lexemeSpan, Token.lexemeSpan, Span.ofLength]

/-- The text of trees begins with the trivia in front of their first token. -/
theorem textOf_eq_leading_append (kind : Kind) (children : List (Tree Token)) :
    Tree.textOf children =
      (ServiceView.leadingTrivia (.node kind children)).text ++
        ((Tree.leavesOf children).modifyHead Token.withoutLeading).flatMap Token.text := by
  rw [Tree.textOf, ServiceView.leadingTrivia, Tree.firstLeaf?, Tree.leaves_node]
  cases Tree.leavesOf children with
  | nil => rfl
  | cons token tokens => simp [← token.text_eq_leading_append, ← List.append_assoc]

/-- New metadata goes between the trivia in front of a service and its first token. -/
theorem text_withMetadata_of_none {service : Place} {kind : Kind} {children : List (Tree Token)}
    (isNode : service.element = .node kind children) (none : metadata? service.element = .none)
    {attachment : Tree Token} {behind : List Token}
    (leaves : attachment.leaves = .bare .atSign "@".toList :: behind) :
    ∃ front back, service.element.text = front ++ back ∧
      (ServiceView.withMetadata (mergeInto .none attachment) service.element).text =
        front ++ attachment.text ++ back ∧
      insertionPoint service = service.start + Text.byteLength front := by
  have metadataLeaves : (mergeInto .none attachment).leaves = .bare .atSign "@".toList :: behind := by
    simp [mergeInto, Fragment.metadata, leaves]
  have annotatedLeaves := ServiceView.leaves_withMetadata kind children metadataLeaves rfl
    (isNode ▸ none)
  refine ⟨(ServiceView.leadingTrivia service.element).text,
    ((Tree.leavesOf children).modifyHead Token.withoutLeading).flatMap Token.text, ?_, ?_, ?_⟩
  · rw [isNode, Tree.text_node, textOf_eq_leading_append kind]
  · rw [isNode, Tree.text, annotatedLeaves, Tree.text]
    simp [leaves, Token.bare, Token.text, Token.withLeading]
  · have nowhere := find?_childrenFrom_eq_none service 0 service.start
      (DeclarationView.metadata?_eq_find? service.element ▸ none)
    rw [insertionPoint, Place.children, nowhere]
    exact head?_tokens_start service

/-- An annotation that is added to metadata goes behind it. -/
theorem text_withMetadata_of_some {service : Place} {kind : Kind} {children : List (Tree Token)}
    (isNode : service.element = .node kind children) {old : Tree Token}
    (found : metadata? service.element = some old) (attachment : Tree Token) :
    ∃ front back, service.element.text = front ++ back ∧
      (ServiceView.withMetadata (mergeInto (some old) attachment) service.element).text =
        front ++ attachment.text ++ back ∧
      insertionPoint service = service.start + Text.byteLength front := by
  obtain ⟨isOld, before, after, split, first⟩ := ServiceView.exists_split_of_metadata? found
  have childrenEq : children = before ++ old :: after := by rw [← split, isNode]; rfl
  obtain ⟨place, search, stop⟩ := find?_childrenFrom service 0 service.start after isOld first
  cases old with
  | leaf token => simp [isMetadata, Tree.isNode] at isOld
  | node metadataKind parts =>
    refine ⟨Tree.textOf before ++ Tree.textOf parts, Tree.textOf after, ?_, ?_, ?_⟩
    · simp [isNode, childrenEq]
    · rw [isNode, childrenEq, ServiceView.withMetadata_append _ _ isOld first]
      simp [mergeInto, Tree.append, Tree.withChildren, Tree.children]
    · rw [insertionPoint, Place.children, split, search]
      simp [stop, Tree.lengthOf, Tree.byteLength, Nat.add_assoc]

/-- Annotating a service inserts one line at the insertion point and keeps all other text. -/
theorem text_annotate? (service : Place) {type : Tree Token} {kind : Kind}
    {children : List (Tree Token)} (isNode : service.element = .node kind children)
    (typed : ServiceView.type? service.element = some type)
    (missing : present annotationModule annotationName (metadata? service.element) = false) :
    ∃ annotated front back, annotate? service.element = some annotated ∧
      service.element.text = front ++ back ∧
      annotated.text = front ++ insertedLine service.element type ++ back ∧
      insertionPoint service = service.start + Text.byteLength front := by
  let attachment := Fragment.withLineBreak (lineBreak service.element) (ofField (field type))
  have attachmentText : attachment.text = insertedLine service.element type :=
    text_ofField_lineBreak service.element type
  have annotatedEq : annotate? service.element = some (ServiceView.withMetadata
      (mergeInto (metadata? service.element) attachment) service.element) := by
    simp [annotate?, typed, missing, attachment]
  rw [annotatedEq, ← attachmentText]
  cases found : metadata? service.element with
  | none =>
    obtain ⟨behind, leaves⟩ := leaves_ne_nil_ofField service.element type
    obtain ⟨front, back, before, after, point⟩ := text_withMetadata_of_none isNode found leaves
    exact ⟨_, front, back, rfl, before, after, point⟩
  | some old =>
    obtain ⟨front, back, before, after, point⟩ :=
      text_withMetadata_of_some isNode found attachment
    exact ⟨_, front, back, rfl, before, after, point⟩

/-- A child that calls for an insertion is a service, and the pass makes that insertion in it. -/
theorem text_annotateChild {child : Place} {insertion : Insertion}
    (called : insertion? child = some insertion) :
    ∃ front back, child.element.text = front ++ back ∧
      (annotateChild child.element).text = front ++ insertion.text ++ back ∧
      insertion.position = child.start + Text.byteLength front := by
  rw [insertion?] at called
  split at called
  · rename_i condition
    obtain ⟨isNode, isService, missing⟩ := condition
    cases elementEq : child.element with
    | leaf token => simp [elementEq, Tree.isNode] at isNode
    | node kind children =>
      rw [Option.map_eq_some_iff] at called
      obtain ⟨type, typed, rfl⟩ := called
      obtain ⟨annotated, front, back, changed, before, after, point⟩ :=
        text_annotate? child elementEq typed missing
      rw [← elementEq, annotateChild_eq isNode isService changed]
      exact ⟨front, back, before, after, point⟩
  · simp at called

/-- A child that calls for no insertion is left as it is. -/
theorem annotateChild_of_insertion?_eq_none {child : Place} (quiet : insertion? child = none) :
    annotateChild child.element = child.element := by
  apply annotateChild_eq_self
  rw [Bool.eq_false_iff]
  intro gets
  simp only [getsAttachment, isMissing, Bool.and_eq_true, beq_iff_eq, Bool.not_eq_true',
    Option.isSome_iff_exists] at gets
  obtain ⟨⟨isNode, isService⟩, ⟨type, typed⟩, missing⟩ := gets
  rw [insertion?, if_pos ⟨isNode, isService, missing⟩, typed] at quiet
  simp at quiet

/-! ## All children of a module -/

/-- The insertions of children lie behind the start of the first child. -/
theorem start_le_position (place : Place) (index start : Nat) (children : List (Tree Token)) :
    ∀ insertion ∈ (place.childrenFrom index start children).filterMap insertion?,
      start ≤ insertion.position := by
  induction children generalizing index start with
  | nil => simp [Place.childrenFrom]
  | cons child children ih =>
    intro insertion inside
    rw [Place.childrenFrom, List.mem_filterMap] at inside
    obtain ⟨origin, isChild, called⟩ := inside
    rcases List.mem_cons.mp isChild with rfl | later
    · obtain ⟨front, _, _, _, point⟩ := text_annotateChild called
      simp only [point]
      omega
    · have behind := ih (index + 1) (start + child.byteLength) insertion
        (List.mem_filterMap.mpr ⟨origin, later, called⟩)
      omega

/-- Making the insertions of children that follow each other gives the text of these children after
the pass. -/
theorem insertFrom?_children (place : Place) (index start : Nat) (children : List (Tree Token)) :
    insertFrom? start (Tree.textOf children)
        ((place.childrenFrom index start children).filterMap insertion?) =
      some (Tree.textOf (children.map annotateChild)) := by
  induction children generalizing index start with
  | nil => simp [Place.childrenFrom, insertFrom?]
  | cons child children ih =>
    have later := ih (index + 1) (start + child.byteLength)
    have behind := start_le_position place (index + 1) (start + child.byteLength) children
    let here : Place := ⟨child, start, ⟨place.element, place.start, index⟩ :: place.steps⟩
    rw [Place.childrenFrom, Tree.textOf_cons, List.map_cons, Tree.textOf_cons]
    cases called : insertion? here with
    | none =>
      have kept : annotateChild child = child := annotateChild_of_insertion?_eq_none called
      rw [List.filterMap_cons_none called, Text.insertFrom?_append start _ _ _ behind]
      change (insertFrom? (start + child.byteLength) _ _).map _ = _
      rw [later, kept, Option.map_some]
    | some insertion =>
      obtain ⟨front, back, before, after, point⟩ := text_annotateChild called
      have size : child.byteLength = Text.byteLength front + Text.byteLength back := by
        rw [Tree.byteLength, before, Text.byteLength_append]
      have startEq : insertion.position + Text.byteLength back = start + child.byteLength := by
        rw [point, size, Nat.add_assoc]
      rw [List.filterMap_cons_some called, before, after, List.append_assoc,
        Text.insertFrom?_cons start front _ insertion _ point,
        Text.insertFrom?_append insertion.position back _ _ (startEq ▸ behind), startEq, later]
      simp

/-- **The pass on a module is an insertion of lines.** Its text afterwards is its text before with
one line inserted for each child that is a service with a type and without the annotation. -/
theorem insert?_insertions (children : List (Tree Token)) :
    insert? (Tree.node .modulePart children).text (insertions (.node .modulePart children)) =
      some (annotateTree (.node .modulePart children)).text := by
  rw [annotateTree_modulePart, Tree.text_node, Tree.text_node]
  exact insertFrom?_children (Place.root (.node .modulePart children)) 0 0 children

end ServiceAnnotator.Attachment
