import Mathlib.Data.List.Forall2
import ServiceAnnotator.Package.Discovery

/-!
# Packages of source files

The documents of a package are numbered as its source files are taken: module by module, and in
each module the main documents first. The package that this gives can be written down from the
files.
-/

namespace ServiceAnnotator

namespace SourceFile

/-- The document of a file in a module. -/
def document (owner : ModuleId) (file : SourceFile) : NewDocument :=
  ⟨owner, file.path, Text.Utf8.decodeLossy file.content⟩

/-- The documents of files in a module, numbered from a number on. -/
def documentsFrom (owner : ModuleId) (first : DocumentId) (files : List SourceFile) :
    List PackageDocument :=
  (files.zipIdx first).map fun entry => ⟨entry.1.document owner, entry.2⟩

theorem documentsFrom_append (owner : ModuleId) (first : DocumentId) (files more : List SourceFile) :
    documentsFrom owner first (files ++ more) =
      documentsFrom owner first files ++ documentsFrom owner (first + files.length) more := by
  rw [documentsFrom, List.zipIdx_append, List.map_append]
  rfl

theorem length_documentsFrom (owner : ModuleId) (first : DocumentId) (files : List SourceFile) :
    (documentsFrom owner first files).length = files.length := by
  rw [documentsFrom, List.length_map, List.length_zipIdx]

/-- The error of a file that is not valid UTF-8, at the end of its valid part. -/
def problem? (id : DocumentId) (file : SourceFile) : Option DocumentDiagnostic :=
  if (Text.Utf8.decode? file.content).isSome then none
  else some ⟨id, .error, "file is not valid UTF-8",
    .empty (Text.byteLength (Text.Utf8.validPrefix file.content))⟩

/-- The errors of files whose documents are numbered from a number on. -/
def problemsFrom (first : DocumentId) (files : List SourceFile) : List DocumentDiagnostic :=
  (files.zipIdx first).filterMap fun entry => entry.1.problem? entry.2

theorem problemsFrom_cons (first : DocumentId) (file : SourceFile) (files : List SourceFile) :
    problemsFrom first (file :: files) =
      (file.problem? first).toList ++ problemsFrom (first + 1) files := by
  rw [problemsFrom, List.zipIdx_cons, List.filterMap_cons]
  cases file.problem? first <;> rfl

theorem problemsFrom_append (first : DocumentId) (files more : List SourceFile) :
    problemsFrom first (files ++ more) =
      problemsFrom first files ++ problemsFrom (first + files.length) more := by
  rw [problemsFrom, List.zipIdx_append, List.filterMap_append]
  rfl

end SourceFile

namespace PackageModule

/-- The module with more documents at the end of a list. -/
def listAll (owner : PackageModule) (ids : List DocumentId) : SourceSet → PackageModule
  | .main => { owner with main := owner.main ++ ids }
  | .test => { owner with test := owner.test ++ ids }

theorem listAll_nil (owner : PackageModule) (set : SourceSet) : owner.listAll [] set = owner := by
  cases set <;> simp [listAll]

theorem listAll_list (owner : PackageModule) (id : DocumentId) (ids : List DocumentId)
    (set : SourceSet) : (owner.list id set).listAll ids set = owner.listAll (id :: ids) set := by
  cases set <;> simp [listAll, list]

end PackageModule

namespace ModuleSources

/-- The files of a module, main files first. -/
def files (sources : ModuleSources) : List SourceFile := sources.main ++ sources.test

/-- The module of a number for source files whose documents are numbered from a number on. -/
def moduleFrom (owner : ModuleId) (first : DocumentId) (sources : ModuleSources) :
    PackageModule where
  id := owner
  name := sources.name
  main := List.range' first sources.main.length
  test := List.range' (first + sources.main.length) sources.test.length

/-- The modules of source files; modules and documents are numbered from two numbers on. -/
def modulesFrom (owner : ModuleId) (first : DocumentId) : List ModuleSources → List PackageModule
  | [] => []
  | sources :: further =>
    sources.moduleFrom owner first ::
      modulesFrom (owner + 1) (first + sources.files.length) further

/-- The documents of modules; modules and documents are numbered from two numbers on. -/
def documentsFrom (owner : ModuleId) (first : DocumentId) :
    List ModuleSources → List PackageDocument
  | [] => []
  | sources :: further =>
    SourceFile.documentsFrom owner first sources.files ++
      documentsFrom (owner + 1) (first + sources.files.length) further

variable (owner : ModuleId) (first : DocumentId) (modules : List ModuleSources)

/-- What a document takes from its file, whatever its module is, the documents take from the
files. -/
theorem map_documentsFrom {α : Type} {view : PackageDocument → α} {fileView : SourceFile → α}
    (same : ∀ owner file id, view ⟨SourceFile.document owner file, id⟩ = fileView file) :
    (documentsFrom owner first modules).map view = (modules.flatMap files).map fileView := by
  induction modules generalizing owner first with
  | nil => rfl
  | cons sources further ih =>
    have ofFiles : (SourceFile.documentsFrom owner first sources.files).map view =
        sources.files.map fileView := by
      rw [SourceFile.documentsFrom, List.map_map]
      calc (sources.files.zipIdx first).map (view ∘ fun entry => ⟨entry.1.document owner, entry.2⟩)
        _ = (sources.files.zipIdx first).map (fileView ∘ Prod.fst) :=
            List.map_congr_left fun entry _ => same owner entry.1 entry.2
        _ = sources.files.map fileView := by rw [← List.map_map, List.zipIdx_map_fst]
    rw [documentsFrom, List.map_append, ih, ofFiles, List.flatMap_cons, List.map_append]

theorem map_path_documentsFrom :
    (documentsFrom owner first modules).map (·.path) =
      (modules.flatMap files).map SourceFile.path :=
  map_documentsFrom owner first modules fun _ _ _ => rfl

theorem map_text_documentsFrom :
    (documentsFrom owner first modules).map (·.text) =
      (modules.flatMap files).map fun file => Text.Utf8.decodeLossy file.content :=
  map_documentsFrom owner first modules fun _ _ _ => rfl

/-- There is one document for each file. -/
theorem length_documentsFrom :
    (documentsFrom owner first modules).length = (modules.flatMap files).length := by
  simpa using congrArg List.length (map_path_documentsFrom owner first modules)

/-- Taken module by module and main documents first, the numbers stand in order. -/
theorem flatMap_modulesFrom :
    ((modulesFrom owner first modules).flatMap fun found => found.main ++ found.test) =
      List.range' first (modules.flatMap files).length := by
  induction modules generalizing owner first with
  | nil => rfl
  | cons sources further ih =>
    rw [modulesFrom, List.flatMap_cons, ih, List.flatMap_cons, List.length_append,
      ← List.range'_append_1, moduleFrom, files, List.length_append, ← List.range'_append_1]

/-- Numbers lead to the documents of files in a module, which keep them. -/
def Numbers (documents : List PackageDocument) (owner : ModuleId) : List SourceFile →
    List DocumentId → Prop :=
  List.Forall₂ fun file id => documents[id]? = some ⟨file.document owner, id⟩

/-- Documents that stand in a row are numbered in a row. -/
theorem numbers_range' (before after : List PackageDocument) (files : List SourceFile) :
    Numbers (before ++ (SourceFile.documentsFrom owner before.length files ++ after)) owner files
      (List.range' before.length files.length) := by
  induction files generalizing before with
  | nil => exact .nil
  | cons file files ih =>
    have further := ih (before ++ [⟨file.document owner, before.length⟩])
    rw [List.append_assoc, List.length_append] at further
    exact .cons (by simp [SourceFile.documentsFrom]) further

/-- The numbers in a module's lists lead to the documents of its files. -/
theorem forall₂_modulesFrom (before : List PackageDocument) :
    List.Forall₂
      (fun sources entry => entry.1.id = entry.2 ∧ entry.1.name = sources.name ∧
        Numbers (before ++ documentsFrom owner before.length modules) entry.2 sources.main
          entry.1.main ∧
        Numbers (before ++ documentsFrom owner before.length modules) entry.2 sources.test
          entry.1.test)
      modules ((modulesFrom owner before.length modules).zipIdx owner) := by
  induction modules generalizing before owner with
  | nil => exact .nil
  | cons sources modules ih =>
    have further := ih (owner + 1)
      (before ++ SourceFile.documentsFrom owner before.length sources.files)
    rw [List.length_append, SourceFile.length_documentsFrom, List.append_assoc] at further
    refine .cons ⟨rfl, rfl, ?_, ?_⟩ further
    · rw [documentsFrom, files, SourceFile.documentsFrom_append, List.append_assoc]
      exact numbers_range' ..
    · have behind := numbers_range' owner
        (before ++ SourceFile.documentsFrom owner before.length sources.main)
        (documentsFrom (owner + 1) (before.length + sources.files.length) modules) sources.test
      rw [List.length_append, SourceFile.length_documentsFrom] at behind
      rw [documentsFrom, files, SourceFile.documentsFrom_append]
      simp only [List.append_assoc] at behind ⊢
      exact behind

end ModuleSources

namespace Package

variable {package : Package} {owner : ModuleId} {found : PackageModule}

theorem addSource_eq (isThere : package.modules[owner]? = some found) (set : SourceSet)
    (file : SourceFile) :
    addSource owner set package file =
      { package with
        modules := package.modules.set owner (found.list package.documents.length set)
        documents := package.documents ++ [⟨file.document owner, package.documents.length⟩]
        loadDiagnostics :=
          package.loadDiagnostics ++ (file.problem? package.documents.length).toList } := by
  simp only [addSource, addDocument?, isThere, Option.map_some, SourceFile.problem?]
  split
  · simp only [Option.toList_none, List.append_nil]
    rfl
  · rfl

/-- Files that are added to a module are listed in it with the numbers that come next. -/
theorem foldl_addSource (isThere : package.modules[owner]? = some found) (set : SourceSet)
    (files : List SourceFile) :
    files.foldl (addSource owner set) package =
      { package with
        modules := package.modules.set owner
          (found.listAll (List.range' package.documents.length files.length) set)
        documents :=
          package.documents ++ SourceFile.documentsFrom owner package.documents.length files
        loadDiagnostics :=
          package.loadDiagnostics ++ SourceFile.problemsFrom package.documents.length files } := by
  induction files generalizing package found with
  | nil =>
    have same : package.modules.set owner found = package.modules := by
      obtain ⟨bound, rfl⟩ := List.getElem?_eq_some_iff.mp isThere
      exact List.set_getElem_self bound
    simp [PackageModule.listAll_nil, same, SourceFile.problemsFrom, SourceFile.documentsFrom]
  | cons file files ih =>
    have bound := (List.getElem?_eq_some_iff.mp isThere).1
    rw [List.foldl_cons, addSource_eq isThere, ih (List.getElem?_set_self bound)]
    simp only [List.set_set, PackageModule.listAll_list, List.length_append, List.length_cons,
      List.length_nil, List.range'_succ, SourceFile.problemsFrom_cons, SourceFile.documentsFrom,
      List.zipIdx_cons, List.append_assoc, List.map_cons, List.singleton_append]

/-- The next module takes the numbers that come next, main documents first. -/
theorem addSources_eq (package : Package) (sources : ModuleSources) :
    package.addSources sources =
      { package with
        modules := package.modules ++
          [sources.moduleFrom package.modules.length package.documents.length]
        documents := package.documents ++
          SourceFile.documentsFrom package.modules.length package.documents.length sources.files
        loadDiagnostics := package.loadDiagnostics ++
          SourceFile.problemsFrom package.documents.length sources.files } := by
  have added : (package.addModule sources.name).1.modules[(package.addModule sources.name).2]? =
      some ⟨package.modules.length, sources.name, [], []⟩ := List.getElem?_concat_length
  simp only [addSources]
  rw [foldl_addSource added .main,
    foldl_addSource (List.getElem?_set_self (by simp [addModule])) .test]
  simp [addModule, PackageModule.listAll, ModuleSources.moduleFrom, ModuleSources.files,
    SourceFile.problemsFrom_append, SourceFile.documentsFrom_append,
    SourceFile.length_documentsFrom]

theorem foldl_addSources (package : Package) (modules : List ModuleSources) :
    modules.foldl addSources package =
      { package with
        modules := package.modules ++
          ModuleSources.modulesFrom package.modules.length package.documents.length modules
        documents := package.documents ++
          ModuleSources.documentsFrom package.modules.length package.documents.length modules
        loadDiagnostics := package.loadDiagnostics ++
          SourceFile.problemsFrom package.documents.length
            (modules.flatMap ModuleSources.files) } := by
  induction modules generalizing package with
  | nil => simp [ModuleSources.modulesFrom, ModuleSources.documentsFrom, SourceFile.problemsFrom]
  | cons sources modules ih =>
    rw [List.foldl_cons, ih, addSources_eq]
    simp [ModuleSources.modulesFrom, ModuleSources.documentsFrom, SourceFile.problemsFrom_append,
      SourceFile.length_documentsFrom]

/-- The package of source files. -/
theorem ofSources_eq (name root : String) (modules : List ModuleSources) :
    ofSources name root modules =
      { name
        root
        modules := ModuleSources.modulesFrom 0 0 modules
        documents := ModuleSources.documentsFrom 0 0 modules
        loadDiagnostics :=
          SourceFile.problemsFrom 0 (modules.flatMap ModuleSources.files) } := by
  rw [ofSources, foldl_addSources]
  rfl

end Package

end ServiceAnnotator
