import Mathlib.Data.List.Nodup
import ServiceAnnotator.Package.Compilation
import ServiceAnnotator.Proofs.Package.History

/-!
# Which documents the pass changes

One error anywhere in a package keeps the pass from changing any of it. Otherwise every main
document gets one edit, module by module, and no test gets any.
-/

namespace ServiceAnnotator

namespace History

/-! ## What the pass should do, told by the history of a package -/

/-- Whether something is wrong with a document: with reading it, or with its text. -/
def HasErrors (history : History) : Prop :=
  (∃ entry ∈ history.loadDiagnostics, entry.diagnostic.isError) ∨
    ∃ entry ∈ history.documents, ∃ diagnostic ∈ SourceTree.check entry.1.text, diagnostic.isError

instance (history : History) : Decidable history.HasErrors :=
  inferInstanceAs (Decidable (_ ∨ _))

/-- The edit of a main document of a module: the document's own tree with its services annotated. -/
def editOf (owner : ModuleId) (entry : NewDocument × DocumentId) : Edit where
  document := entry.2
  owner
  set := .main
  path := entry.1.path
  text := (Attachment.annotateTree (SourceTree.parse entry.1.text).tree).text

/-- One edit for each document that was added to the main half of a module, in the order in which
modules were added and documents were added to them. -/
def edits (history : History) : List Edit :=
  (List.range history.moduleNames.length).flatMap fun owner =>
    (history.documentsOf owner .main).map (editOf owner)

/-! ## Documents of a module -/

variable {history : History} {owner : ModuleId} {set : SourceSet}

theorem mem_documentsOf {document : NewDocument} {id : DocumentId} :
    (document, id) ∈ history.documentsOf owner set ↔
      history.documents[id]? = some (document, set) ∧ document.owner = owner := by
  simp only [documentsOf, List.mem_map, List.mem_filter, Prod.exists, Prod.mk.injEq,
    List.mk_mem_zipIdx_iff_getElem?, decide_eq_true_eq]
  constructor
  · rintro ⟨_, half, _, ⟨isEntry, isOwner, rfl⟩, rfl, rfl⟩
    exact ⟨isEntry, isOwner⟩
  · rintro ⟨isEntry, isOwner⟩
    exact ⟨document, set, id, ⟨isEntry, isOwner, rfl⟩, rfl, rfl⟩

/-- The documents of a half of a module stand in the order of their numbers. -/
theorem pairwise_documentsOf : ((history.documentsOf owner set).map Prod.snd).Pairwise (· < ·) := by
  have sublist := (List.filter_sublist (l := history.documents.zipIdx)
    (p := fun entry => entry.1.1.owner = owner ∧ entry.1.2 = set)).map Prod.snd
  rw [List.zipIdx_map_snd] at sublist
  rw [documentsOf, List.map_map]
  exact List.Pairwise.sublist sublist List.pairwise_lt_range'

/-- A document is listed at most once in a half of a module. -/
theorem nodup_documentsOf : ((history.documentsOf owner set).map Prod.snd).Nodup :=
  pairwise_documentsOf.imp Nat.ne_of_lt

/-! ## The edits of a history -/

theorem mem_edits {edit : Edit} :
    edit ∈ history.edits ↔ ∃ owner < history.moduleNames.length,
      ∃ entry ∈ history.documentsOf owner .main, editOf owner entry = edit := by
  simp only [edits, List.mem_flatMap, List.mem_range, List.mem_map]

/-- No document gets two edits. -/
theorem nodup_document_edits : (history.edits.map Edit.document).Nodup := by
  have ids (owner : ModuleId) : ((history.documentsOf owner .main).map (editOf owner)).map
      Edit.document = (history.documentsOf owner .main).map Prod.snd := by
    rw [List.map_map]
    rfl
  simp only [edits, List.map_flatMap, ids]
  rw [List.nodup_flatMap]
  refine ⟨fun owner _ => nodup_documentsOf, List.nodup_range.imp fun {owner other} differ => ?_⟩
  rintro id here there
  obtain ⟨⟨document, _⟩, inHere, rfl⟩ := List.mem_map.mp here
  obtain ⟨⟨document', _⟩, inThere, rfl⟩ := List.mem_map.mp there
  obtain ⟨isHere, rfl⟩ := mem_documentsOf.mp inHere
  obtain ⟨isThere, rfl⟩ := mem_documentsOf.mp inThere
  obtain ⟨rfl, -⟩ := Prod.mk.inj (Option.some.inj (isHere.symm.trans isThere))
  exact differ rfl

/-- The documents that get an edit are those that were added to the main half of a module. -/
theorem mem_document_edits (exist : history.OwnersExist) {id : DocumentId} :
    id ∈ history.edits.map Edit.document ↔
      ∃ document, history.documents[id]? = some (document, .main) := by
  simp only [List.mem_map, mem_edits]
  constructor
  · rintro ⟨_, ⟨owner, _, ⟨document, number⟩, inside, rfl⟩, rfl⟩
    exact ⟨document, (mem_documentsOf.mp inside).1⟩
  · rintro ⟨document, isEntry⟩
    have isOwner := exist _ (List.mem_of_getElem? isEntry)
    exact ⟨_, ⟨_, isOwner, (document, id), mem_documentsOf.mpr ⟨isEntry, rfl⟩, rfl⟩, rfl⟩

/-! ## The edits of the package -/

/-- The modules of a package, each made from its number. -/
theorem modules_package (name root : String) :
    (history.package name root).modules =
      history.moduleNames.zipIdx.map fun entry => history.moduleOf entry.2 entry.1 :=
  List.mapIdx_eq_zipIdx_map

/-- The documents of a package, each with its number. -/
theorem documents_package (name root : String) :
    (history.package name root).documents =
      history.documents.zipIdx.map fun entry => ⟨entry.1.1, entry.2⟩ :=
  List.mapIdx_eq_zipIdx_map

/-- Documents stand where their numbers say. -/
theorem getElem?_documents_package (name root : String) (id : DocumentId) :
    (history.package name root).documents[id]? = history.documents[id]?.map (⟨·.1, id⟩) :=
  List.getElem?_mapIdx

theorem toNewDocument_documents_package (name root : String) :
    (history.package name root).documents.map PackageDocument.toNewDocument =
      history.documents.map Prod.fst := by
  rw [documents_package, List.map_map]
  calc history.documents.zipIdx.map _
    _ = (history.documents.zipIdx.map Prod.fst).map Prod.fst := List.map_map.symm
    _ = history.documents.map Prod.fst := by rw [List.zipIdx_map_fst]

/-- A package has errors if something is wrong with any of its documents. -/
theorem hasErrors_package (name root : String) :
    (history.package name root).hasErrors ↔ history.HasErrors := by
  have inDocuments : (∃ document ∈ (history.package name root).documents.map
        PackageDocument.toNewDocument,
        ∃ diagnostic ∈ SourceTree.check document.text, diagnostic.isError) ↔
      ∃ entry ∈ history.documents,
        ∃ diagnostic ∈ SourceTree.check entry.1.text, diagnostic.isError := by
    simp only [toNewDocument_documents_package, List.mem_map, exists_exists_and_eq_and]
  rw [HasErrors, ← inDocuments]
  simp only [Package.hasErrors, Package.diagnostics, Diagnostic.allowChanges, Bool.not_not,
    List.any_map, List.any_append, Bool.or_eq_true, List.any_flatMap, List.any_eq_true, List.mem_map,
    exists_exists_and_eq_and, Function.comp_apply]
  rfl

theorem not_hasErrors_of_clean {name root : String}
    (clean : (history.package name root).hasErrors = false) : ¬history.HasErrors := by
  rw [← hasErrors_package name root, clean]
  exact Bool.false_ne_true

/-- The edits of a module are those of the documents that were added to its main half. -/
theorem editsOf_moduleOf (name root : String) (owner : ModuleId) (moduleName : String) :
    (history.package name root).editsOf (history.moduleOf owner moduleName) =
      (history.documentsOf owner .main).map (editOf owner) := by
  have mainEq : (history.moduleOf owner moduleName).main =
      (history.documentsOf owner .main).map Prod.snd := rfl
  rw [Package.editsOf, mainEq, List.filterMap_map, ← List.filterMap_eq_map]
  apply List.filterMap_congr
  rintro ⟨document, id⟩ inside
  have stands : (history.package name root).documents[id]? = some ⟨document, id⟩ := by
    rw [getElem?_documents_package, (mem_documentsOf.mp inside).1]
    rfl
  have listed : id ∈ (history.moduleOf owner moduleName).main :=
    List.mem_map.mpr ⟨_, inside, rfl⟩
  have isOwner : (history.moduleOf owner moduleName).id = owner := rfl
  simp [stands, isOwner, editOf, PackageModule.sourceSetOf, listed, Package.annotatedText]

/-- Without errors a package has the edits that its history tells. -/
theorem edits_package (name root : String) (clean : ¬history.HasErrors) :
    (history.package name root).edits = history.edits := by
  have owners :
      history.moduleNames.zipIdx.map Prod.snd = List.range history.moduleNames.length := by
    rw [List.zipIdx_map_snd, List.range_eq_range']
  rw [Package.edits, if_neg (mt (hasErrors_package name root).mp clean), modules_package,
    List.flatMap_map, edits, ← owners, List.flatMap_map]
  simp only [editsOf_moduleOf]

end History

end ServiceAnnotator
