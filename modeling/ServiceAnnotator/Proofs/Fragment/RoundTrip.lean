import ServiceAnnotator.Proofs.Events.Parse
import ServiceAnnotator.Proofs.Fragment.Reread

/-!
# Synthesized annotations read back

A synthesized annotation in front of a service is parsed without a problem, and the annotation that
is found has the names, the keys and the values that it was synthesized from.
-/

namespace ServiceAnnotator.Fragment

open Attachment (spacedColon)
open Grammar (items member next qualified)

/-! ## Keys and values -/

/-- The fields among the children of a mapping constructor. -/
def fieldsAmong (trees : List (Tree Token)) : List (Tree Token) :=
  (trees.filter Tree.isNode).filter fun tree => tree.kind.isField

theorem fields_mappingConstructor (opens closes : Token) (trees : List (Tree Token)) :
    MappingView.fields (.node .mappingConstructor (.leaf opens :: (trees ++ [.leaf closes]))) =
      fieldsAmong trees := by
  simp [MappingView.fields, Tree.nodesWhere, Tree.childNodes, Tree.children, Tree.isNode, fieldsAmong]

theorem Name.trimmedText_expression (name : Name) :
    (Tree.node .expression (name.tokens.map .leaf)).trimmedText = name.tree.text := by
  rw [Tree.trimmedText, Tree.text, Tree.leaves_trimmed, Tree.leaves_node, Tree.leavesOf_map_leaf,
    name.trimmed_tokens, Tree.text, name.leaves_tree]

theorem Value.isNode_readTree (value : Value) : value.readTree.isNode := by
  cases value <;> rw [Value.readTree] <;> rfl

mutual

/-- A value reads back from the tree that its tokens are read to. -/
theorem Value.readsBack (value : Value) : value.ReadsBack value.readTree := by
  cases value with
  | name name =>
    rw [Value.readTree, Value.ReadsBack]
    exact ⟨rfl, rfl, name.trimmedText_expression⟩
  | mapping fields =>
    rw [Value.readTree, Value.ReadsBack, fields_mappingConstructor]
    exact ⟨rfl, rfl, fields.readBack []⟩

/-- Fields read back from the trees that their tokens are read to. -/
theorem Fields.readBack (fields : Fields) (front : List Token) :
    fields.ReadBack (fieldsAmong (fields.readTrees front)) := by
  cases fields with
  | nil =>
    rw [Fields.readTrees, Fields.ReadBack]
    rfl
  | cons key value fields =>
    have inValue := value.readsBack
    have behind := fields.readBack [comma]
    let field : Tree Token :=
      .node .specificField [.leaf key.token, .leaf spacedColon, value.readTree]
    have split : fieldsAmong (front.map .leaf ++ field :: fields.readTrees [comma]) =
        field :: fieldsAmong (fields.readTrees [comma]) := by
      simp [fieldsAmong, field, Tree.isNode, Tree.kind, Kind.isField, List.filter_map,
        Function.comp_def]
    have found : MappingView.value? field = some value.readTree := by
      show ([value.readTree].filter Tree.isNode).head? = some value.readTree
      rw [List.filter_cons_of_pos value.isNode_readTree, List.head?_cons]
    rw [Fields.readTrees, Fields.ReadBack]
    exact ⟨field, _, split, rfl, rfl, ⟨_, found, inValue⟩, behind⟩

end

/-! ## The document -/

/-- The text of a service without a type. -/
def bareService : List Char := "service on ep \x7b\x7d\n".toList

def serviceTokens : List Token := (TokenStream.scan bareService).tokens

theorem qualified_serviceTokens :
    (qualified serviceTokens).1 = .serviceDeclaration ∧ (qualified serviceTokens).2.reports = [] ∧
      (qualified serviceTokens).2.rest = [] := by
  decide +kernel

/-- The service with an annotation in front, as it is parsed. -/
def annotatedService (moduleName name : Identifier) (fields : Fields) : Tree Token :=
  .node .serviceDeclaration
    (.node .metadata [readAttachment moduleName name fields] :: (qualified serviceTokens).2.elements)

/-- The tokens of an annotation and a service are parsed as the service with the annotation. -/
theorem items_annotated (moduleName name : Identifier) (fields : Fields) :
    items (annotationTokens moduleName name fields ++ serviceTokens) =
      ⟨[annotatedService moduleName name fields], [], []⟩ := by
  obtain ⟨isService, noReports, nothing⟩ := qualified_serviceTokens
  have noSign : next serviceTokens ≠ .atSign := by decide +kernel
  have read := metadata_tokens moduleName name fields noSign
  have memberEq : member (annotationTokens moduleName name fields ++ serviceTokens) =
      ⟨[annotatedService moduleName name fields], [], []⟩ := by
    rw [Grammar.member_eq, read, Parsed.andThen, noReports, nothing, isService]
    rfl
  have split : annotationTokens moduleName name fields ++ serviceTokens =
      .bare .atSign "@".toList ::
        ((annotationTokens moduleName name fields).tail ++ serviceTokens) := rfl
  have isSign : kind (Token.bare .atSign "@".toList) = .atSign := rfl
  rw [split] at memberEq ⊢
  rw [Grammar.items_cons, isSign, if_neg (by decide), if_pos (by decide), memberEq, Parsed.andThen,
    items]
  rfl

/-- A synthesized annotation in front of a service is parsed as the annotation of the service. -/
theorem parse_annotated (moduleName name : Identifier) (fields : Fields) :
    let source := SourceTree.parse ((metadata [attachment
      (qualifiedReference moduleName.text name.text)
      (some (mapping fields.trees))]).text ++ bareService)
    source.tree = .node .modulePart
        [annotatedService moduleName name fields, .leaf (TokenStream.scan bareService).endOfFile] ∧
      source.problems = [] := by
  have scanned := TokenStream.scan_of_tiles (tiles_attachment moduleName name fields bareService)
  have read := items_annotated moduleName name fields
  rw [serviceTokens] at read
  simp only [text_attachment, SourceTree.problems, SourceTree.parse, scanned, read]
  exact ⟨rfl, rfl⟩

/-- A synthesized annotation in front of a service reads back. The text is parsed without a problem,
the only annotation of the service names what was given, and its mapping has the keys and values
that were given, in their order and to any depth. -/
theorem annotation_readsBack (moduleName name : Identifier) (fields : Fields) :
    let printed := (metadata [attachment (qualifiedReference moduleName.text name.text)
      (some (mapping fields.trees))]).text
    let source := SourceTree.parse (printed ++ "service on ep \x7b\x7d\n".toList)
    (Events.parse (printed ++ "service on ep \x7b\x7d\n".toList)).run =
        some (.ok (source.tree.map Token.slice, [])) ∧
      ∃ service metadata attachment reference value,
        ModuleView.services source.tree = [service] ∧
        DeclarationView.metadata? service = some metadata ∧
        MetadataView.attachments metadata = [attachment] ∧
        AttachmentView.reference? attachment = some reference ∧
        reference.kind = .qualifiedNameReference ∧
        (ReferenceView.first? reference).map Token.lexeme = some moduleName.text ∧
        (ReferenceView.identifier? reference).map Token.lexeme = some name.text ∧
        AttachmentView.value? attachment = some value ∧
        (Value.mapping fields).ReadsBack value := by
  intro printed source
  obtain ⟨treeEq, noProblems⟩ := parse_annotated moduleName name fields
  have parsed := Events.parse_eq (printed ++ bareService)
  rw [noProblems] at parsed
  refine ⟨parsed, annotatedService moduleName name fields, _, readAttachment moduleName name fields,
    _, _, ?_, rfl, rfl, rfl, rfl, rfl, rfl, rfl, ?_⟩
  · have found : source.tree = _ := treeEq
    rw [found]
    rfl
  · rw [Value.ReadsBack, fields_mappingConstructor]
    exact ⟨rfl, rfl, fields.readBack []⟩

theorem annotation_readsBack_nested :
    ∃ tree, (Events.parse
      "@http:ServiceConfig \x7ba: A, b: \x7b\x7d\x7d\nservice on ep \x7b\x7d\n".toList).run =
        some (.ok (tree, [])) := by
  let http := Identifier.ofWord 'h' "ttp".toList (by decide) (by decide) (by decide)
  let config := Identifier.ofWord 'S' "erviceConfig".toList (by decide) (by decide) (by decide)
  let a := Identifier.ofWord 'a' [] (by decide) (by decide) (by decide)
  let b := Identifier.ofWord 'b' [] (by decide) (by decide) (by decide)
  let A := Identifier.ofWord 'A' [] (by decide) (by decide) (by decide)
  let fields := Fields.cons a (.name (.simple A)) (.cons b (.mapping .nil) .nil)
  exact ⟨_, (annotation_readsBack http config fields).1⟩

end ServiceAnnotator.Fragment
