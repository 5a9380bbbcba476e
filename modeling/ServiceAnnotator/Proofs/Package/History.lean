import Mathlib.Data.List.Induction
import ServiceAnnotator.Package.Basic

/-!
# Packages as they are built

A package is built by additions, one after the other: modules, documents of modules that are there
already, and problems met while reading. Whatever their order is, the package that they give can be
written down from the history alone. Its modules and documents are numbered in the order of their
additions, and each document is listed once, in the half of the module to which it was added.
-/

namespace ServiceAnnotator

/-- An addition to a package. -/
inductive Addition where
  | ofModule (name : String)
  | ofDocument (document : NewDocument) (set : SourceSet)
  | ofLoadDiagnostic (entry : DocumentDiagnostic)
  deriving DecidableEq, Repr

namespace Addition

/-- The name of the module that is added. -/
@[simp] def moduleName? : Addition → Option String
  | ofModule name => some name
  | ofDocument .. | ofLoadDiagnostic _ => none

/-- The document that is added, and the half of its module that it is added to. -/
@[simp] def document? : Addition → Option (NewDocument × SourceSet)
  | ofDocument document set => some (document, set)
  | ofModule _ | ofLoadDiagnostic _ => none

/-- The problem that is added. -/
@[simp] def loadDiagnostic? : Addition → Option DocumentDiagnostic
  | ofLoadDiagnostic entry => some entry
  | ofModule _ | ofDocument .. => none

end Addition

/-- What was added to a package, the first addition first. -/
abbrev History := List Addition

namespace History

/-- The names of the modules, in the order of their additions. -/
def moduleNames (history : History) : List String := history.filterMap Addition.moduleName?

/-- The documents and the halves of their modules, in the order of their additions. -/
def documents (history : History) : List (NewDocument × SourceSet) :=
  history.filterMap Addition.document?

/-- The problems met while reading. -/
def loadDiagnostics (history : History) : List DocumentDiagnostic :=
  history.filterMap Addition.loadDiagnostic?

/-- The documents that were added to a half of a module, each with its number. -/
def documentsOf (history : History) (owner : ModuleId) (set : SourceSet) :
    List (NewDocument × DocumentId) :=
  (history.documents.zipIdx.filter fun entry => entry.1.1.owner = owner ∧ entry.1.2 = set).map
    fun entry => (entry.1.1, entry.2)

/-- The module of a number, with the documents that were added to it. -/
def moduleOf (history : History) (owner : ModuleId) (name : String) : PackageModule where
  id := owner
  name
  main := (history.documentsOf owner .main).map Prod.snd
  test := (history.documentsOf owner .test).map Prod.snd

/-- The package that a history describes. -/
def package (name root : String) (history : History) : Package where
  name
  root
  modules := history.moduleNames.mapIdx history.moduleOf
  documents := history.documents.mapIdx fun id entry => ⟨entry.1, id⟩
  loadDiagnostics := history.loadDiagnostics

/-- Every document was added to a module that was there. -/
def OwnersExist (history : History) : Prop :=
  ∀ entry ∈ history.documents, entry.1.owner < history.moduleNames.length

end History

namespace Package

/-- The package with one addition, unless it is a document of a module that is not there. -/
def add? (package : Package) : Addition → Option Package
  | .ofModule name => some (package.addModule name).1
  | .ofDocument document set =>
    (package.addDocument? document.owner document.path document.text set).map Prod.fst
  | .ofLoadDiagnostic entry => some (package.addLoadDiagnostic entry.document entry.diagnostic)

/-- The package that is built by additions from nothing. -/
def build? (name root : String) (history : History) : Option Package :=
  history.foldlM add? (.empty name root)

end Package

namespace History

/-! ## One more addition -/

variable (history : History)

theorem moduleNames_concat (addition : Addition) :
    moduleNames (history ++ [addition]) = history.moduleNames ++ addition.moduleName?.toList := by
  cases addition <;> simp [moduleNames]

theorem documents_concat (addition : Addition) :
    documents (history ++ [addition]) = history.documents ++ addition.document?.toList := by
  cases addition <;> simp [documents]

theorem loadDiagnostics_concat (addition : Addition) :
    loadDiagnostics (history ++ [addition]) =
      history.loadDiagnostics ++ addition.loadDiagnostic?.toList := by
  cases addition <;> simp [loadDiagnostics]

/-- A document is listed behind those that were added before. -/
theorem documentsOf_concat (addition : Addition) (owner : ModuleId) (set : SourceSet) :
    documentsOf (history ++ [addition]) owner set =
      history.documentsOf owner set ++
        (addition.document?.toList.filter fun entry => entry.1.owner = owner ∧ entry.2 = set).map
          fun entry => (entry.1, history.documents.length) := by
  rw [documentsOf, documents_concat, List.zipIdx_append, List.filter_append, List.map_append,
    documentsOf]
  cases addition <;> simp [List.filter_cons, apply_ite]

theorem moduleOf_concat {addition : Addition} (noDocument : addition.document? = none) :
    moduleOf (history ++ [addition]) = history.moduleOf := by
  funext owner name
  simp only [moduleOf, documentsOf_concat, noDocument, Option.toList_none, List.filter_nil,
    List.map_nil, List.append_nil]

/-- A document is listed in the half of the module to which it is added, and nowhere else. -/
theorem moduleOf_ofDocument (document : NewDocument) (set : SourceSet) (owner : ModuleId)
    (name : String) :
    moduleOf (history ++ [.ofDocument document set]) owner name =
      if document.owner = owner then (history.moduleOf owner name).list history.documents.length set
      else history.moduleOf owner name := by
  by_cases here : document.owner = owner
  · cases set <;> simp [moduleOf, documentsOf_concat, here, PackageModule.list]
  · simp [moduleOf, documentsOf_concat, here]

variable {history}

/-- A module is without documents when it is added. -/
theorem moduleOf_length (exist : history.OwnersExist) (name : String) :
    history.moduleOf history.moduleNames.length name =
      ⟨history.moduleNames.length, name, [], []⟩ := by
  have nothing (set : SourceSet) : history.documentsOf history.moduleNames.length set = [] := by
    rw [documentsOf, List.map_eq_nil_iff, List.filter_eq_nil_iff]
    intro entry inside
    have before := exist entry.1 (List.fst_mem_of_mem_zipIdx inside)
    simpa using fun same => absurd same (Nat.ne_of_lt before)
  rw [moduleOf, nothing, nothing]
  rfl

theorem OwnersExist.concat (exist : history.OwnersExist) {addition : Addition}
    (there : ∀ entry ∈ addition.document?, entry.1.owner < history.moduleNames.length) :
    OwnersExist (history ++ [addition]) := by
  intro entry inside
  rw [moduleNames_concat, List.length_append]
  apply Nat.lt_add_right
  rw [documents_concat, List.mem_append, Option.mem_toList] at inside
  exact inside.elim (exist entry) (there entry)

/-- Listing a document in its module gives the modules of the longer history. -/
theorem set_modules {name root : String} {document : NewDocument} (set : SourceSet)
    {found : PackageModule}
    (isThere : (history.package name root).modules[document.owner]? = some found) :
    (history.package name root).modules.set document.owner (found.list history.documents.length set) =
      history.moduleNames.mapIdx (moduleOf (history ++ [.ofDocument document set])) := by
  apply List.ext_getElem?
  intro owner
  have stands : (history.package name root).modules[owner]? =
      (history.moduleNames[owner]?).map (history.moduleOf owner) := List.getElem?_mapIdx
  rw [List.getElem?_mapIdx, funext (moduleOf_ofDocument history document set owner)]
  by_cases here : document.owner = owner
  · subst here
    rw [List.getElem?_set_self', isThere]
    rw [isThere] at stands
    obtain ⟨moduleName, isName, rfl⟩ := Option.map_eq_some_iff.mp stands.symm
    simp [isName]
  · rw [List.getElem?_set_ne here, stands]
    simp [here]

/-- An addition to a package that a history describes gives the package that the longer history
describes. -/
theorem add?_package {name root : String} {addition : Addition} {package : Package}
    (exist : history.OwnersExist)
    (added : (history.package name root).add? addition = some package) :
    package = History.package name root (history ++ [addition]) ∧
      OwnersExist (history ++ [addition]) := by
  cases addition with
  | ofModule moduleName =>
    obtain rfl := Option.some.inj added
    have sameModules : moduleOf (history ++ [.ofModule moduleName]) = history.moduleOf :=
      moduleOf_concat history rfl
    refine ⟨?_, exist.concat (by simp)⟩
    simp [History.package, Package.addModule, sameModules, moduleNames_concat, documents_concat,
      loadDiagnostics_concat, List.mapIdx_append, moduleOf_length exist]
  | ofDocument document set =>
    simp only [Package.add?, Package.addDocument?, Option.map_map, Option.map_eq_some_iff,
      Function.comp_apply] at added
    obtain ⟨found, isThere, rfl⟩ := added
    refine ⟨?_, exist.concat ?_⟩
    · have listed := set_modules set isThere
      simp only [History.package] at listed ⊢
      simp [listed, moduleNames_concat, documents_concat, loadDiagnostics_concat,
        List.mapIdx_append]
    · obtain ⟨bound, _⟩ := List.getElem?_eq_some_iff.mp isThere
      simpa [History.package] using bound
  | ofLoadDiagnostic entry =>
    obtain rfl := Option.some.inj added
    have sameModules : moduleOf (history ++ [.ofLoadDiagnostic entry]) = history.moduleOf :=
      moduleOf_concat history rfl
    refine ⟨?_, exist.concat (by simp)⟩
    simp [History.package, Package.addLoadDiagnostic, sameModules, moduleNames_concat,
      documents_concat, loadDiagnostics_concat]

/-- A package that is built is the one that its history describes. -/
theorem package_of_build? {name root : String} {package : Package}
    (built : Package.build? name root history = some package) :
    package = history.package name root ∧ history.OwnersExist := by
  induction history using List.reverseRecOn generalizing package with
  | nil =>
    obtain rfl := Option.some.inj built
    exact ⟨rfl, fun _ inside => nomatch inside⟩
  | append_singleton history addition ih =>
    rw [Package.build?, List.foldlM_append] at built
    obtain ⟨before, builtBefore, added⟩ := Option.bind_eq_some_iff.mp built
    obtain ⟨rfl, exist⟩ := ih builtBefore
    refine add?_package exist ?_
    simpa using added

end History

end ServiceAnnotator
