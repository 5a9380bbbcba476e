import ServiceAnnotator.CommandLine.Outcome
import ServiceAnnotator.Proofs.Attachment.Fixpoint
import ServiceAnnotator.Proofs.Package.Edits

/-!
# The pass over a package that it has changed

A package free of errors stays free of errors when the pass has changed its documents, and a second
pass then finds nothing to change. The changed package has a history of its own: that of the
package, with the annotated texts of the main documents in it.
-/

namespace ServiceAnnotator

open Attachment (Unannotated annotatedText_eq_self_iff annotatedText_annotatedText)
open Package (annotatedText)

/-- A document of a half of a module after the pass; tests keep their texts. -/
def NewDocument.annotated (document : NewDocument) : SourceSet → NewDocument
  | .main => { document with text := annotatedText document.text }
  | .test => document

/-- The addition of the annotated document in place of the document. -/
def Addition.annotated : Addition → Addition
  | ofModule name => ofModule name
  | ofDocument document set => ofDocument (document.annotated set) set
  | ofLoadDiagnostic entry => ofLoadDiagnostic entry

namespace Package

/-! ## Texts put into a package -/

/-- Another text of a document changes the document and nothing else. -/
theorem setText_eq (package : Package) (id : DocumentId) (text : List Char) :
    package.setText id text =
      { package with
        documents := package.documents.modify id fun found => { found with text } } := by
  rw [setText, setText?, List.modify_eq_set_getElem?]
  cases package.documents[id]? with
  | none => rfl
  | some found => rfl

theorem documents_setText (package : Package) (id : DocumentId) (text : List Char) :
    (package.setText id text).documents =
      package.documents.modify id fun found => { found with text } := by
  rw [setText_eq]

theorem apply_cons (package : Package) (edit : Edit) (edits : List Edit) :
    package.apply (edit :: edits) = (package.setText edit.document edit.text).apply edits :=
  rfl

/-- Edits change documents and nothing else. -/
theorem apply_eq (package : Package) (edits : List Edit) :
    package.apply edits = { package with documents := (package.apply edits).documents } := by
  induction edits generalizing package with
  | nil => rfl
  | cons edit edits ih => rw [apply_cons, ih, setText_eq]

/-- What does not depend on the texts of documents is the same after edits. -/
theorem map_documents_apply {α : Type} {view : PackageDocument → α}
    (textless : ∀ document text, view { document with text } = view document) (package : Package)
    (edits : List Edit) :
    (package.apply edits).documents.map view = package.documents.map view := by
  induction edits generalizing package with
  | nil => rfl
  | cons edit edits ih =>
    rw [apply_cons, ih, documents_setText]
    apply List.ext_getElem?
    intro id
    rw [List.getElem?_map, List.getElem?_modify, List.getElem?_map]
    cases package.documents[id]? with
    | none => rfl
    | some document =>
      simp only [Option.map_eq_map, Option.map_some]
      split
      · exact congrArg some (textless document edit.text)
      · rfl

theorem getElem?_apply_of_notMem (package : Package) {edits : List Edit} {id : DocumentId}
    (other : id ∉ edits.map Edit.document) :
    (package.apply edits).documents[id]? = package.documents[id]? := by
  induction edits generalizing package with
  | nil => rfl
  | cons edit edits ih =>
    rw [List.map_cons, List.mem_cons, not_or] at other
    rw [apply_cons, ih _ other.2, documents_setText, List.getElem?_modify_ne _ _ (Ne.symm other.1)]

/-- Of several edits of different documents each gives its text to its document. -/
theorem getElem?_apply_of_mem (package : Package) {edits : List Edit} {edit : Edit}
    (inside : edit ∈ edits) (nodup : (edits.map Edit.document).Nodup) :
    (package.apply edits).documents[edit.document]? =
      package.documents[edit.document]?.map fun found => { found with text := edit.text } := by
  induction edits generalizing package with
  | nil => cases inside
  | cons first edits ih =>
    obtain ⟨notAgain, nodup⟩ := List.nodup_cons.mp nodup
    rw [apply_cons]
    rcases List.mem_cons.mp inside with rfl | inside
    · rw [getElem?_apply_of_notMem _ notAgain, documents_setText, List.getElem?_modify_eq]
      rfl
    · have differ : first.document ≠ edit.document := by
        intro same
        exact notAgain (same ▸ List.mem_map_of_mem inside)
      rw [ih _ inside nodup, documents_setText, List.getElem?_modify_ne _ _ differ]

end Package

namespace CommandLine.Outcome

theorem changes_eq_nil_iff (package : Package) :
    changes package = [] ↔ ∀ edit ∈ package.edits, package.isNoop edit := by
  simp [changes]

/-- What annotating a package free of errors comes to. -/
theorem ofModify_of_clean {package : Package} (clean : package.hasErrors = false) (dryRun : Bool)
    (format : Format) :
    ofModify package dryRun format =
      { exitCode := 0
        output := (reportOf package dryRun (changes package)).shown format
        errors := ""
        writes :=
          if dryRun then [] else (changes package).map fun edit => (edit.path, edit.text) } := by
  rw [ofModify, codeOf, clean, if_neg Bool.false_ne_true, if_neg Bool.false_ne_true]

end CommandLine.Outcome

namespace History

/-- The history with the annotated texts of the main documents in it. -/
def annotated (history : History) : History := history.map Addition.annotated

/-- One edit for each main document with a service that lacks the annotation, in the order of all
edits. -/
def changes (history : History) : List Edit :=
  (List.range history.moduleNames.length).flatMap fun owner =>
    ((history.documentsOf owner .main).filter fun entry => Unannotated entry.1.text).map
      (editOf owner)

/-! ## The history of the changed package -/

variable {history : History}

theorem moduleNames_annotated : history.annotated.moduleNames = history.moduleNames := by
  rw [moduleNames, annotated, List.filterMap_map]
  apply List.filterMap_congr
  intro addition _
  cases addition <;> rfl

theorem loadDiagnostics_annotated :
    history.annotated.loadDiagnostics = history.loadDiagnostics := by
  rw [loadDiagnostics, annotated, List.filterMap_map]
  apply List.filterMap_congr
  intro addition _
  cases addition <;> rfl

theorem documents_annotated :
    history.annotated.documents =
      history.documents.map fun entry => (entry.1.annotated entry.2, entry.2) := by
  rw [documents, annotated, List.filterMap_map, documents, List.map_filterMap]
  apply List.filterMap_congr
  intro addition _
  cases addition <;> rfl

theorem owner_annotated (document : NewDocument) (set : SourceSet) :
    (document.annotated set).owner = document.owner := by
  cases set <;> rfl

theorem documentsOf_annotated (owner : ModuleId) (set : SourceSet) :
    history.annotated.documentsOf owner set =
      (history.documentsOf owner set).map fun entry => (entry.1.annotated set, entry.2) := by
  rw [documentsOf, documents_annotated, List.zipIdx_map, List.filter_map, List.map_map, documentsOf,
    List.map_map]
  have sameOwner (entry : (NewDocument × SourceSet) × DocumentId) :
      decide ((entry.1.1.annotated entry.1.2).owner = owner ∧ entry.1.2 = set) =
        decide (entry.1.1.owner = owner ∧ entry.1.2 = set) := by
    rw [owner_annotated]
  simp only [Function.comp_def, Prod.map, sameOwner]
  apply List.map_congr_left
  intro entry inside
  obtain ⟨_, rfl⟩ := of_decide_eq_true (List.mem_filter.mp inside).2
  rfl

theorem moduleOf_annotated : history.annotated.moduleOf = history.moduleOf := by
  funext owner name
  simp only [moduleOf, documentsOf_annotated, List.map_map]
  rfl

/-- The edits of a package, put into it, give the package of the annotated history. -/
theorem apply_edits (name root : String) (exist : history.OwnersExist) :
    (history.package name root).apply history.edits = history.annotated.package name root := by
  have documentsEq : ((history.package name root).apply history.edits).documents =
      (history.annotated.package name root).documents := by
    apply List.ext_getElem?
    intro id
    rw [getElem?_documents_package, documents_annotated, List.getElem?_map, Option.map_map]
    have before :
        (history.package name root).documents[id]? = history.documents[id]?.map (⟨·.1, id⟩) :=
      getElem?_documents_package name root id
    by_cases edited : id ∈ history.edits.map Edit.document
    · obtain ⟨document, entry⟩ := (mem_document_edits exist).mp edited
      have isEdit : editOf document.owner (document, id) ∈ history.edits :=
        mem_edits.mpr ⟨_, exist _ (List.mem_of_getElem? entry), _,
          mem_documentsOf.mpr ⟨entry, rfl⟩, rfl⟩
      have after := Package.getElem?_apply_of_mem (history.package name root) isEdit
        nodup_document_edits
      rw [editOf, before, entry] at after
      rw [entry]
      exact after
    · rw [Package.getElem?_apply_of_notMem _ edited, before]
      rw [mem_document_edits exist] at edited
      cases entry : history.documents[id]? with
      | none => rfl
      | some found =>
        obtain ⟨document, set⟩ := found
        cases set with
        | test => rfl
        | main => exact absurd ⟨document, entry⟩ edited
  rw [Package.apply_eq, documentsEq]
  simp only [package, moduleOf_annotated, moduleNames_annotated, loadDiagnostics_annotated]

/-- The pass brings no errors into a package. -/
theorem hasErrors_annotated : history.annotated.HasErrors ↔ history.HasErrors := by
  have sameErrors (document : NewDocument) (set : SourceSet) :
      (∃ diagnostic ∈ SourceTree.check (document.annotated set).text, diagnostic.isError) ↔
        ∃ diagnostic ∈ SourceTree.check document.text, diagnostic.isError := by
    cases set with
    | main => exact Attachment.exists_isError_check_annotatedText document.text
    | test => exact Iff.rfl
  simp only [HasErrors, loadDiagnostics_annotated, documents_annotated, List.mem_map,
    exists_exists_and_eq_and, sameErrors]

/-- The pass gives the same texts a second time. -/
theorem edits_annotated : history.annotated.edits = history.edits := by
  have sameEdit (owner : ModuleId) (entry : NewDocument × DocumentId) :
      editOf owner (entry.1.annotated .main, entry.2) = editOf owner entry := by
    have sameText := annotatedText_annotatedText entry.1.text
    simp only [annotatedText] at sameText
    simp only [editOf, NewDocument.annotated, annotatedText, sameText]
  simp only [edits, moduleNames_annotated, documentsOf_annotated, List.map_map, Function.comp_def,
    sameEdit]

/-! ## Edits that change nothing -/

theorem getElem?_documents_of_mem (name root : String) {owner : ModuleId} {set : SourceSet}
    {entry : NewDocument × DocumentId} (inside : entry ∈ history.documentsOf owner set) :
    (history.package name root).documents[entry.2]? = some ⟨entry.1, entry.2⟩ := by
  rw [getElem?_documents_package, (mem_documentsOf.mp inside).1]
  rfl

/-- The edit of a main document changes nothing if and only if no service in it lacks the
annotation. -/
theorem isNoop_editOf (name root : String) {owner : ModuleId}
    {entry : NewDocument × DocumentId} (inside : entry ∈ history.documentsOf owner .main) :
    (history.package name root).isNoop (editOf owner entry) = decide ¬Unannotated entry.1.text := by
  have changed : (editOf owner entry).text = annotatedText entry.1.text := rfl
  have number : (editOf owner entry).document = entry.2 := rfl
  rw [Bool.eq_iff_iff, decide_eq_true_iff, ← annotatedText_eq_self_iff, Package.isNoop, changed,
    number, getElem?_documents_of_mem name root inside, Option.map_some, beq_iff_eq, Option.some_inj,
    eq_comm]

/-- The edits that change their documents are those of documents with a service that lacks the
annotation. -/
theorem changes_package (name root : String) (clean : ¬history.HasErrors) :
    CommandLine.Outcome.changes (history.package name root) = history.changes := by
  rw [CommandLine.Outcome.changes, edits_package name root clean, edits, changes,
    List.filter_flatMap]
  congr 1
  funext owner
  rw [List.filter_map]
  congr 1
  apply List.filter_congr
  intro entry inside
  rw [Function.comp_apply, isNoop_editOf name root inside, decide_not, Bool.not_not]

theorem isNoop_of_mem_edits (name root : String) {edit : Edit} (inside : edit ∈ history.edits) :
    ∃ document, (history.package name root).documents[edit.document]? = some document ∧
      ((history.package name root).isNoop edit ↔ ¬Unannotated document.text) := by
  obtain ⟨owner, _, entry, isMain, rfl⟩ := mem_edits.mp inside
  refine ⟨_, getElem?_documents_of_mem name root isMain, ?_⟩
  rw [isNoop_editOf name root isMain, decide_eq_true_iff]

/-- The annotated history has no document to change. -/
theorem changes_annotated : history.annotated.changes = [] := by
  rw [changes, List.flatMap_eq_nil_iff]
  intro owner _
  rw [List.map_eq_nil_iff, List.filter_eq_nil_iff, documentsOf_annotated]
  intro entry inside
  obtain ⟨original, _, rfl⟩ := List.mem_map.mp inside
  rw [decide_eq_true_iff]
  exact (annotatedText_eq_self_iff _).mp (annotatedText_annotatedText original.1.text)

end History

end ServiceAnnotator
