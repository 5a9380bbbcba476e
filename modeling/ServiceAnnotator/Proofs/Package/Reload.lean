import Mathlib.Data.List.Flatten
import ServiceAnnotator.Proofs.FileSystem.Write
import ServiceAnnotator.Proofs.Package.Discovery
import ServiceAnnotator.Proofs.Package.Encoding
import ServiceAnnotator.Proofs.Package.SecondPass

/-!
# Packages that are written and read again

The pass writes the documents that it changes back to their files. A package that is read from a
directory lies there file by file, each in a place of its own, so that nothing else is overwritten.
The package that is read from the directory afterwards is the one that the pass has left in memory.
-/

namespace ServiceAnnotator

/-! ## The same directories with other contents -/

/-- The file as it is read from other contents. -/
def SourceFile.reread (contents : String → Option (List UInt8)) (file : SourceFile) : SourceFile :=
  { file with content := (contents file.path).getD [] }

/-- The document with the text that other contents give to its file. -/
def PackageDocument.reread (contents : String → Option (List UInt8)) (document : PackageDocument) :
    PackageDocument :=
  { document with text := Text.Utf8.decodeLossy ((contents document.path).getD []) }

namespace ModuleSources

/-- The files of a module as they are read from other contents. -/
def reread (contents : String → Option (List UInt8)) (sources : ModuleSources) : ModuleSources where
  name := sources.name
  main := sources.main.map (SourceFile.reread contents)
  test := sources.test.map (SourceFile.reread contents)

variable (contents : String → Option (List UInt8)) (owner : ModuleId) (first : DocumentId)
variable (modules : List ModuleSources)

theorem files_reread (sources : ModuleSources) :
    (sources.reread contents).files = sources.files.map (SourceFile.reread contents) :=
  List.map_append.symm

/-- The modules of a package do not depend on the contents of its files. -/
theorem modulesFrom_reread :
    modulesFrom owner first (modules.map (reread contents)) = modulesFrom owner first modules := by
  induction modules generalizing owner first with
  | nil => rfl
  | cons sources modules ih =>
    rw [List.map_cons, modulesFrom, modulesFrom, files_reread, List.length_map, ih]
    simp only [moduleFrom, reread, List.length_map]

/-- Its documents take nothing but their texts from them. -/
theorem documentsFrom_reread :
    documentsFrom owner first (modules.map (reread contents)) =
      (documentsFrom owner first modules).map (PackageDocument.reread contents) := by
  induction modules generalizing owner first with
  | nil => rfl
  | cons sources modules ih =>
    rw [List.map_cons, documentsFrom, documentsFrom, files_reread, List.length_map, ih,
      List.map_append, SourceFile.documentsFrom, SourceFile.documentsFrom, List.zipIdx_map,
      List.map_map, List.map_map]
    rfl

end ModuleSources

namespace FileSystem

/-- Whether texts stand in files. -/
def HaveTexts (contents : String → Option (List UInt8)) (files : List SourceFile) : Prop :=
  ∀ file ∈ files, ∃ text, contents file.path = some (Text.Utf8.encode text)

variable {system : FileSystem} {contents : String → Option (List UInt8)}
variable {directory root name : String} {files : List SourceFile} {modules : List ModuleSources}

theorem reads_withContents {names : List String}
    (reads : List.Forall₂ (system.Reads directory) names files)
    (texts : HaveTexts contents files) :
    List.Forall₂ ((system.withContents contents).Reads directory) names
      (files.map (SourceFile.reread contents)) := by
  induction reads with
  | nil => exact .nil
  | cons isFile _ ih =>
    obtain ⟨⟨text, isContent⟩, texts⟩ := List.forall_mem_cons.mp texts
    refine .cons ⟨isFile.1, isContent.trans ?_⟩ (ih texts)
    rw [SourceFile.reread, isContent, Option.getD_some]

/-- The same files are found in a directory, whatever they contain. -/
theorem sourcesIn_withContents (read : system.sourcesIn directory = .ok files)
    (texts : HaveTexts contents files) :
    (system.withContents contents).sourcesIn directory =
      .ok (files.map (SourceFile.reread contents)) := by
  obtain ⟨names, sorted, reads⟩ := sourcesIn_eq_ok_iff.mp read
  exact sourcesIn_eq_ok_iff.mpr ⟨names, sorted, reads_withContents reads texts⟩

theorem testsIn_withContents (read : system.testsIn directory = .ok files)
    (texts : HaveTexts contents files) :
    (system.withContents contents).testsIn directory =
      .ok (files.map (SourceFile.reread contents)) := by
  have sameKind : (system.withContents contents).isDirectory = system.isDirectory := rfl
  rw [testsIn_eq_ok_iff] at read ⊢
  rw [sameKind]
  split at read
  · rename_i isDirectory
    rw [if_pos isDirectory]
    exact sourcesIn_withContents read texts
  · rename_i noDirectory
    rw [if_neg noDirectory, read, List.map_nil]

theorem moduleIn_withContents {sources : ModuleSources}
    (read : system.moduleIn name directory = .ok sources)
    (texts : HaveTexts contents sources.files) :
    (system.withContents contents).moduleIn name directory = .ok (sources.reread contents) := by
  obtain ⟨isName, main, test⟩ := moduleIn_eq_ok_iff.mp read
  obtain ⟨mainTexts, testTexts⟩ := List.forall_mem_append.mp texts
  exact moduleIn_eq_ok_iff.mpr
    ⟨isName, sourcesIn_withContents main mainTexts, testsIn_withContents test testTexts⟩

theorem furtherModules_withContents (read : system.furtherModules name root = .ok modules)
    (texts : HaveTexts contents (modules.flatMap ModuleSources.files)) :
    (system.withContents contents).furtherModules name root =
      .ok (modules.map (ModuleSources.reread contents)) := by
  have sameKind : (system.withContents contents).isDirectory = system.isDirectory := rfl
  rw [furtherModules_eq_ok_iff] at read ⊢
  rw [sameKind]
  split at read
  · rename_i isDirectory
    obtain ⟨names, sorted, reads⟩ := read
    rw [if_pos isDirectory]
    refine ⟨names, sorted, ?_⟩
    generalize names.filter _ = directories at reads ⊢
    induction reads with
    | nil => exact .nil
    | cons isModule _ ih =>
      obtain ⟨ownTexts, texts⟩ := List.forall_mem_append.mp texts
      exact .cons (moduleIn_withContents isModule ownTexts) (ih texts)
  · rename_i noDirectory
    rw [if_neg noDirectory, read, List.map_nil]

/-- The name of a package depends on no content but that of the manifest. -/
theorem packageName_withContents (reader : ManifestReader)
    (kept : contents (entryPath root "Ballerina.toml") =
      system.content? (entryPath root "Ballerina.toml")) :
    (system.withContents contents).packageName reader root = system.packageName reader root := by
  have sameManifest : (system.withContents contents).manifestName? reader root =
      system.manifestName? reader root := by
    simp only [manifestName?, withContents, kept]
    rfl
  rw [packageName, sameManifest]
  rfl

end FileSystem

namespace Package

variable {reader : ManifestReader} {system : FileSystem} {root : String} {package : Package}

/-- Texts in files are read without errors. -/
theorem problemsFrom_reread {contents : String → Option (List UInt8)} {files : List SourceFile}
    (texts : FileSystem.HaveTexts contents files) (first : DocumentId) :
    SourceFile.problemsFrom first (files.map (SourceFile.reread contents)) = [] := by
  rw [SourceFile.problemsFrom, List.filterMap_eq_nil_iff]
  rintro ⟨file, id⟩ isNumbered
  obtain ⟨original, isOriginal, rfl⟩ := List.mem_map.mp (List.fst_mem_of_mem_zipIdx isNumbered)
  obtain ⟨text, isContent⟩ := texts original isOriginal
  have isText : (SourceFile.reread contents original).content = Text.Utf8.encode text := by
    rw [SourceFile.reread, isContent, Option.getD_some]
  rw [SourceFile.problem?, isText, Text.Utf8.decode?_encode]
  rfl

/-- A package that edits have changed is read from its directory as it is, once its texts stand in
the files of its documents. -/
theorem load_withContents {contents : String → Option (List UInt8)} {edits : List Edit}
    (loaded : Package.load reader system root = .ok package)
    (noProblems : package.loadDiagnostics = [])
    (manifest : contents (entryPath root "Ballerina.toml") =
      system.content? (entryPath root "Ballerina.toml"))
    (stored : ∀ document ∈ (package.apply edits).documents,
      contents document.path = some (Text.Utf8.encode document.text)) :
    Package.load reader (system.withContents contents) root = .ok (package.apply edits) := by
  obtain ⟨isDirectory, name, first, further, isName, isFirst, isFurther, isPackage⟩ :=
    load_eq_ok_iff.mp loaded
  rw [ofSources_eq] at isPackage
  -- Edits leave the paths alone, so the same files are read, and each gives the text of its document.
  have documentsEq : (package.apply edits).documents =
      package.documents.map (PackageDocument.reread contents) := by
    rw [← map_documents_apply (fun _ _ => rfl) package edits]
    conv_lhs => rw [← List.map_id (package.apply edits).documents]
    apply List.map_congr_left
    intro document inside
    rw [id, PackageDocument.reread, stored document inside, Option.getD_some,
      Text.Utf8.decodeLossy_encode]
  have paths : (package.apply edits).documents.map (·.path) =
      ((first :: further).flatMap ModuleSources.files).map SourceFile.path := by
    rw [map_documents_apply (fun _ _ => rfl), isPackage, ModuleSources.map_path_documentsFrom]
  have texts : FileSystem.HaveTexts contents ((first :: further).flatMap ModuleSources.files) := by
    intro file inside
    obtain ⟨document, isThere, isPath⟩ :=
      List.mem_map.mp (paths ▸ List.mem_map_of_mem (f := SourceFile.path) inside)
    exact ⟨document.text, isPath ▸ stored document isThere⟩
  obtain ⟨firstTexts, furtherTexts⟩ := List.forall_mem_append.mp texts
  refine load_eq_ok_iff.mpr ⟨isDirectory, name, first.reread contents,
    further.map (ModuleSources.reread contents),
    (FileSystem.packageName_withContents reader manifest).trans isName,
    FileSystem.moduleIn_withContents isFirst firstTexts,
    FileSystem.furtherModules_withContents isFurther furtherTexts, ?_⟩
  have sameFiles : ((first :: further).map (ModuleSources.reread contents)).flatMap
      ModuleSources.files =
        ((first :: further).flatMap ModuleSources.files).map (SourceFile.reread contents) := by
    simp only [List.flatMap_map, ModuleSources.files_reread, List.map_flatMap]
  rw [← List.map_cons, ofSources_eq, ModuleSources.modulesFrom_reread,
    ModuleSources.documentsFrom_reread, sameFiles, problemsFrom_reread texts, apply_eq, documentsEq]
  simp only [isPackage] at noProblems ⊢
  rw [noProblems]

theorem root_of_load (loaded : Package.load reader system root = .ok package) :
    package.root = root := by
  obtain ⟨_, name, first, further, _, _, _, rfl⟩ := load_eq_ok_iff.mp loaded
  rw [ofSources_eq]

/-- All problems met while reading files are errors. -/
theorem loadDiagnostics_of_clean (loaded : Package.load reader system root = .ok package)
    (clean : package.hasErrors = false) : package.loadDiagnostics = [] := by
  obtain ⟨_, name, first, further, _, _, _, rfl⟩ := load_eq_ok_iff.mp loaded
  rw [List.eq_nil_iff_forall_not_mem]
  intro entry inside
  have isError : entry.diagnostic.isError := by
    rw [ofSources_eq] at inside
    obtain ⟨⟨file, id⟩, _, isProblem⟩ := List.mem_filterMap.mp inside
    rw [SourceFile.problem?] at isProblem
    split at isProblem
    · cases isProblem
    · rw [← Option.some.inj isProblem]
      rfl
  exact Bool.false_ne_true (clean.symm.trans (hasErrors_of_mem inside isError))

/-- Whether the texts of a package's documents stand in their files. -/
def StoredIn (package : Package) (system : FileSystem) : Prop :=
  ∀ document ∈ package.documents,
    system.content? document.path = some (Text.Utf8.encode document.text)

theorem storedIn_of_load (loaded : Package.load reader system root = .ok package)
    (clean : package.hasErrors = false) : package.StoredIn system := by
  intro document inside
  obtain ⟨id, isThere⟩ := List.mem_iff_getElem?.mp inside
  obtain ⟨file, isContent, isText, noProblem⟩ := exists_file_of_load loaded isThere
  rw [loadDiagnostics_of_clean loaded clean, List.filter_nil, SourceFile.problem?] at noProblem
  split at noProblem
  · rename_i isValid
    obtain ⟨cs, isForm⟩ := Text.Utf8.isSome_decode?_iff.mp isValid
    rw [isContent, isText, ← isForm, Text.Utf8.decodeLossy_encode]
  · cases noProblem

/-- Whether each document of a package lies in a place of its own, where the manifest does not
lie. -/
structure LiesApart (package : Package) (system : FileSystem) : Prop where
  distinct : (package.documents.map fun document => system.location? document.path).Nodup
  notManifest : ∀ document ∈ package.documents,
    system.location? document.path ≠ system.location? (entryPath package.root "Ballerina.toml")

end Package

/-! ## Packages in a tree -/

namespace FileTree

variable {tree : FileTree} {working : List FileName} {reader : ManifestReader} {root : String}
variable {package : Package}

theorem WellNamed.isEntryName_of_selects (named : tree.WellNamed) {directory : String}
    {wanted : String → Prop} {names : List String}
    (selects : (tree.fileSystem working).Selects directory wanted names) {name : String}
    (inside : name ∈ names) : IsEntryName (.ofText name) := by
  obtain ⟨_, entries, listed, isEntry⟩ := ((selects.exact name).mp inside).1
  exact (named.listed listed).2 _ isEntry

/-- The file of a document is reached by names of entries, and the last one ends with `.bal`. -/
theorem WellNamed.exists_names (named : tree.WellNamed)
    (loaded : Package.load reader (tree.fileSystem working) root = .ok package) {path : String}
    (inside : path ∈ package.documents.map (·.path)) :
    ∃ way name, (∀ part ∈ way ++ [name], IsEntryName (.ofText part)) ∧
      ".bal".toList <:+ name.toList ∧ (way ++ [name]).foldl entryPath root = path := by
  obtain ⟨_, modules, directories, _, rfl, isHeld, inPlaces⟩ :=
    FileSystem.exists_modules_of_load named.proper loaded
  have inDirectories := FileSystem.hasModule_ways inPlaces
  rw [Package.ofSources_eq, ModuleSources.map_path_documentsFrom,
    ← FileSystem.flatMap_snd_groups inDirectories.length_eq, List.map_flatMap] at inside
  obtain ⟨⟨half, files⟩, isGroup, isPath⟩ := List.mem_flatMap.mp inside
  obtain ⟨⟨way, isWay, isHalf⟩, names, selects, reads⟩ :=
    FileSystem.hasSources_of_mem_groups inDirectories isGroup
  rw [FileSystem.map_path_of_reads reads] at isPath
  obtain ⟨name, isName, rfl⟩ := List.mem_map.mp isPath
  obtain ⟨stem, _, isSource⟩ := ((selects.exact name).mp isName).2.1
  have ofModules : IsEntryName (.ofText "modules") := by constructor <;> decide +kernel
  have ofTests : IsEntryName (.ofText "tests") := by constructor <;> decide +kernel
  have ofWay := FileSystem.forall_of_mem_ways ofModules
    (fun _ isDirectory => named.isEntryName_of_selects isHeld isDirectory) isWay
  refine ⟨half, name, List.forall_mem_append.mpr
    ⟨FileSystem.forall_of_mem_halves ofTests ofWay isHalf, List.forall_mem_singleton.mpr ?_⟩,
    ⟨stem, isSource.symm⟩, List.foldl_concat ..⟩
  exact named.isEntryName_of_selects selects isName

/-- The documents of a package in a tree lie apart from each other and from the manifest. -/
theorem WellNamed.liesApart (named : tree.WellNamed)
    (loaded : Package.load reader (tree.fileSystem working) root = .ok package) :
    package.LiesApart (tree.fileSystem working) := by
  have isDirectory := (Package.load_eq_ok_iff.mp loaded).1
  have filled : root.isEmpty = false := isEmpty_of_kind? (of_decide_eq_true isDirectory)
  have located : ∀ path ∈ package.documents.map (·.path),
      ∃ place, tree.locate? working path = some place := by
    intro path inside
    obtain ⟨document, isDocument, rfl⟩ := List.mem_map.mp inside
    obtain ⟨id, isThere⟩ := List.mem_iff_getElem?.mp isDocument
    obtain ⟨file, isContent, _⟩ := Package.exists_file_of_load loaded isThere
    exact exists_place_of_content? isContent
  -- Both follow from the names below the root, since a place tells the names that lead there.
  refine ⟨?_, fun document isDocument same => ?_⟩
  · have apart := (FileSystem.nodup_paths_of_load named.proper loaded).map_on
      (f := tree.locate? working) ?_
    · rwa [List.map_map] at apart
    · intro path inside other insideOther same
      obtain ⟨place, isPlace⟩ := located path inside
      obtain ⟨way, name, proper, _, rfl⟩ := named.exists_names loaded inside
      obtain ⟨otherWay, otherName, otherProper, _, rfl⟩ := named.exists_names loaded insideOther
      rw [names_eq_of_locate? proper otherProper filled isPlace (same ▸ isPlace)]
  · have inside := List.mem_map_of_mem (f := (·.path)) isDocument
    obtain ⟨place, isPlace⟩ := located _ inside
    obtain ⟨way, name, proper, isSource, isPath⟩ := named.exists_names loaded inside
    have manifestProper : ∀ part ∈ ["Ballerina.toml"], IsEntryName (.ofText part) := by
      rw [List.forall_mem_singleton]
      constructor <;> decide +kernel
    rw [Package.root_of_load loaded] at same
    have sameNames := names_eq_of_locate? proper manifestProper filled (isPath ▸ isPlace)
      (same.symm.trans isPlace)
    have isManifest : name = "Ballerina.toml" := by
      simpa using congrArg List.getLast? sameNames
    subst isManifest
    exact absurd isSource (by decide)

end FileTree

/-! ## The package that the pass has left -/

namespace History

open Attachment (Unannotated annotatedText_eq_self_iff)
open CommandLine (ChangeReport Format)
open CommandLine.Outcome (changes_eq_nil_iff ofModify ofModify_of_clean reportOf)
open Package (annotatedText)

variable {history : History} {name root : String} {system other : FileSystem}

/-- What the pass writes: the texts of the documents that it changes, each with its path. -/
def writes (history : History) : List (String × List Char) :=
  history.changes.map fun edit => (edit.path, edit.text)

theorem mem_changes (exist : history.OwnersExist) {edit : Edit} :
    edit ∈ history.changes ↔ ∃ id document, history.documents[id]? = some (document, .main) ∧
      Unannotated document.text ∧ editOf document.owner (document, id) = edit := by
  simp only [changes, List.mem_flatMap, List.mem_range, List.mem_map, List.mem_filter, Prod.exists,
    mem_documentsOf, decide_eq_true_eq]
  constructor
  · rintro ⟨_, _, document, id, ⟨⟨isEntry, rfl⟩, isUnannotated⟩, rfl⟩
    exact ⟨id, document, isEntry, isUnannotated, rfl⟩
  · rintro ⟨id, document, isEntry, isUnannotated, rfl⟩
    exact ⟨document.owner, exist _ (List.mem_of_getElem? isEntry), document, id,
      ⟨⟨isEntry, rfl⟩, isUnannotated⟩, rfl⟩

theorem mem_writes (exist : history.OwnersExist) {write : String × List Char} :
    write ∈ history.writes ↔ ∃ (id : DocumentId) (document : NewDocument),
      history.documents[id]? = some (document, .main) ∧ Unannotated document.text ∧
        (document.path, annotatedText document.text) = write := by
  simp only [writes, List.mem_map, mem_changes exist]
  constructor
  · rintro ⟨_, ⟨id, document, isEntry, isUnannotated, rfl⟩, rfl⟩
    exact ⟨id, document, isEntry, isUnannotated, rfl⟩
  · rintro ⟨id, document, isEntry, isUnannotated, rfl⟩
    exact ⟨_, ⟨id, document, isEntry, isUnannotated, rfl⟩, rfl⟩

theorem mem_documents_package {document : PackageDocument} :
    document ∈ (history.package name root).documents ↔
      ∃ set, history.documents[document.id]? = some (document.toNewDocument, set) := by
  simp only [documents_package, List.mem_map, Prod.exists, List.mk_mem_zipIdx_iff_getElem?]
  constructor
  · rintro ⟨entry, set, id, isEntry, rfl⟩
    exact ⟨set, isEntry⟩
  · rintro ⟨set, isEntry⟩
    exact ⟨_, set, _, isEntry, rfl⟩

/-- A place tells which document lies there. -/
theorem eq_of_location?_eq (apart : (history.package name root).LiesApart system)
    {id otherId : DocumentId} {entry otherEntry : NewDocument × SourceSet}
    (here : history.documents[id]? = some entry)
    (there : history.documents[otherId]? = some otherEntry)
    (same : system.location? entry.1.path = system.location? otherEntry.1.path) : id = otherId := by
  have bound : id < (history.package name root).documents.length := by
    rw [package, List.length_mapIdx]
    exact (List.getElem?_eq_some_iff.mp here).1
  refine (List.getElem?_inj (by rwa [List.length_map]) apart.distinct).mp ?_
  rw [List.getElem?_map, List.getElem?_map, getElem?_documents_package, getElem?_documents_package,
    here, there]
  exact congrArg some same

/-- The documents that are written lie in places of their own. -/
theorem pairwise_writes (exist : history.OwnersExist)
    (apart : (history.package name root).LiesApart system) :
    history.writes.Pairwise fun write next =>
      system.location? write.1 ≠ system.location? next.1 := by
  have sublist : history.changes.Sublist history.edits :=
    .flatMap_right _ fun _ _ => List.filter_sublist.map _
  have distinct := List.pairwise_map.mp (nodup_document_edits.sublist (sublist.map Edit.document))
  rw [writes, List.pairwise_map]
  refine distinct.imp_of_mem fun {edit next} inside insideNext differ same => differ ?_
  obtain ⟨id, document, isEntry, _, rfl⟩ := (mem_changes exist).mp inside
  obtain ⟨nextId, nextDocument, isNextEntry, _, rfl⟩ := (mem_changes exist).mp insideNext
  exact eq_of_location?_eq apart isEntry isNextEntry same

/-- When the documents that the pass changes are written, the texts of all documents stand in their
files. -/
theorem storedIn_annotated (exist : history.OwnersExist)
    (apart : (history.package name root).LiesApart system)
    (stored : (history.package name root).StoredIn system)
    (overwritten : system.Overwritten other history.writes) :
    (history.annotated.package name root).StoredIn other := by
  intro document inside
  obtain ⟨half, isAnnotated⟩ := mem_documents_package.mp inside
  rw [documents_annotated, List.getElem?_map] at isAnnotated
  obtain ⟨⟨original, set⟩, isEntry, same⟩ := Option.map_eq_some_iff.mp isAnnotated
  have isDocument : document.toNewDocument = original.annotated set := (Prod.mk.inj same).1.symm
  have isPath : document.path = original.path := by
    rw [isDocument]
    cases set <;> rfl
  have storedOriginal : system.content? original.path = some (Text.Utf8.encode original.text) :=
    stored ⟨original, document.id⟩ (mem_documents_package.mpr ⟨set, isEntry⟩)
  rw [isPath, isDocument]
  -- A document that the pass changes is written. No other one is, nor is its place written to.
  by_cases isChanged : set = .main ∧ Unannotated original.text
  · obtain ⟨rfl, isUnannotated⟩ := isChanged
    exact overwritten.written _ ((mem_writes exist).mpr ⟨_, _, isEntry, isUnannotated, rfl⟩)
  · have unchanged : original.annotated set = original := by
      cases set with
      | test => rfl
      | main =>
        have isAnnotated : ¬Unannotated original.text := fun lacks => isChanged ⟨rfl, lacks⟩
        rw [NewDocument.annotated, (annotatedText_eq_self_iff _).mpr isAnnotated]
    rw [unchanged, overwritten.kept, storedOriginal]
    intro write isWrite same
    obtain ⟨id, changed, isChangedEntry, isUnannotated, rfl⟩ := (mem_writes exist).mp isWrite
    obtain rfl := eq_of_location?_eq apart isChangedEntry isEntry same
    obtain ⟨rfl, rfl⟩ := Prod.mk.inj (Option.some.inj (isChangedEntry.symm.trans isEntry))
    exact isChanged ⟨rfl, isUnannotated⟩

/-- When the documents that the pass changes are written to the directory that the package was read
from, the changed package is read from it. -/
theorem load_of_overwritten {package : Package} {reader : ManifestReader} {path : String}
    (built : Package.build? name root history = some package) (clean : package.hasErrors = false)
    (loaded : Package.load reader system path = .ok package) (apart : package.LiesApart system)
    (overwritten : system.Overwritten other history.writes) :
    Package.load reader other path = .ok (package.apply package.edits) := by
  have noProblems := Package.loadDiagnostics_of_clean loaded clean
  have stored := Package.storedIn_of_load loaded clean
  have isRoot := Package.root_of_load loaded
  obtain ⟨rfl, exist⟩ := package_of_build? built
  have noErrors := not_hasErrors_of_clean clean
  have storedAfter := storedIn_annotated exist apart stored overwritten
  rw [edits_package name root noErrors]
  rw [← apply_edits name root exist] at storedAfter
  rw [overwritten.eq_withContents]
  refine Package.load_withContents loaded noProblems (overwritten.kept _ ?_) storedAfter
  intro write isWrite
  obtain ⟨id, document, isEntry, _, rfl⟩ := (mem_writes exist).mp isWrite
  rw [← isRoot]
  exact apart.notManifest ⟨document, id⟩ (mem_documents_package.mpr ⟨.main, isEntry⟩)

/-- The pass writes its package to a tree so that the package it has left is read from it. -/
theorem load_of_written {package : Package} {reader : ManifestReader} {tree : FileTree}
    {working : List FileName} {path : String}
    (built : Package.build? name root history = some package) (clean : package.hasErrors = false)
    (named : tree.WellNamed)
    (loaded : Package.load reader (tree.fileSystem working) path = .ok package) (format : Format) :
    Package.load reader
        ((tree.writeAll working (ofModify package false format).writes).fileSystem working) path =
      .ok (package.apply package.edits) := by
  have apart := named.liesApart loaded
  have stored := Package.storedIn_of_load loaded clean
  have exist : history.OwnersExist := (package_of_build? built).2
  obtain rfl := (package_of_build? built).1
  have isWritten : (ofModify (history.package name root) false format).writes = history.writes := by
    rw [ofModify_of_clean clean, if_neg Bool.false_ne_true,
      changes_package name root (not_hasErrors_of_clean clean), writes]
  have areFiles : ∀ write ∈ history.writes,
      ∃ old, (tree.fileSystem working).content? write.1 = some old := by
    intro write isWrite
    obtain ⟨id, document, isEntry, _, rfl⟩ := (mem_writes exist).mp isWrite
    exact ⟨_, stored ⟨document, id⟩ (mem_documents_package.mpr ⟨.main, isEntry⟩)⟩
  rw [isWritten]
  exact load_of_overwritten built clean loaded apart
    (FileTree.overwritten_writeAll areFiles (pairwise_writes exist apart))

/-- When the pass has changed a package free of errors, the package is still free of errors and
keeps its tests, and a second pass gives every main document the text that it has. In the first pass
this holds of the documents in which no service lacks the annotation. So the first run writes and
reports all other main documents and the second run none, and when the package was read from a
directory, the changed package is what is read from there after the first run. -/
theorem converges_of_build? {name root : String} {package second : Package}
    (built : Package.build? name root history = some package) (clean : package.hasErrors = false)
    (changed : package.apply package.edits = second) :
    second.hasErrors = false ∧
      second.edits = package.edits ∧
      (∀ edit ∈ second.edits, second.isNoop edit) ∧
      (∀ (id : DocumentId) (document : NewDocument),
        history.documents[id]? = some (document, .test) →
          second.documents[id]? = some ⟨document, id⟩) ∧
      (∀ edit ∈ package.edits, ∃ document, package.documents[edit.document]? = some document ∧
        (package.isNoop edit ↔ ¬Unannotated document.text)) ∧
      (∀ dryRun format,
        ofModify package dryRun format =
          { exitCode := 0
            output := (reportOf package dryRun history.changes).shown format
            errors := ""
            writes :=
              if dryRun then [] else history.changes.map fun edit => (edit.path, edit.text) } ∧
        ofModify second dryRun format =
          { exitCode := 0
            output := ({ package := name, dryRun, changed := [] } : ChangeReport).shown format
            errors := ""
            writes := [] }) ∧
      ∀ (reader : ManifestReader) (tree : FileTree) (working : List FileName) (path : String)
        (format : Format), tree.WellNamed →
        Package.load reader (tree.fileSystem working) path = .ok package →
        Package.load reader
            ((tree.writeAll working (ofModify package false format).writes).fileSystem working)
            path =
          .ok second := by
  have reload (reader : ManifestReader) (tree : FileTree) (working : List FileName) (path : String)
      (format : Format) (named : tree.WellNamed)
      (loaded : Package.load reader (tree.fileSystem working) path = .ok package) :=
    changed ▸ load_of_written built clean named loaded format
  obtain ⟨rfl, exist⟩ := package_of_build? built
  have noErrors := not_hasErrors_of_clean clean
  have stillNone : ¬history.annotated.HasErrors := mt hasErrors_annotated.mp noErrors
  have secondClean : (history.annotated.package name root).hasErrors = false := by
    rwa [Bool.eq_false_iff, ne_eq, hasErrors_package]
  rw [edits_package name root noErrors, apply_edits name root exist] at changed
  subst changed
  rw [edits_package name root noErrors, edits_package name root stillNone]
  refine ⟨secondClean, edits_annotated, ?_, ?_, fun edit => isNoop_of_mem_edits name root, ?_,
    reload⟩
  · have none := changes_package name root stillNone
    rw [changes_annotated, changes_eq_nil_iff, edits_package name root stillNone] at none
    exact none
  · intro id document isTest
    rw [getElem?_documents_package, documents_annotated, List.getElem?_map, isTest]
    rfl
  · intro dryRun format
    rw [ofModify_of_clean clean, ofModify_of_clean secondClean, changes_package name root noErrors,
      changes_package name root stillNone, changes_annotated, List.map_nil, ite_self]
    exact ⟨rfl, rfl⟩

/-- A main document with a service to annotate, one without, and a test. -/
def mixed : History :=
  [.ofModule "demo",
    .ofDocument ⟨0, "a.bal", "service T on l {}\n".toList⟩ .main,
    .ofDocument ⟨0, "tests/t.bal", "service U on l {}\n".toList⟩ .test,
    .ofDocument ⟨0, "b.bal", "service /b on l {}\n".toList⟩ .main]

/-- A directory with one document. -/
def singleTree : FileTree :=
  .directory [(.ofText "demo", .directory
    [(.ofText "a.bal", .file (Text.Utf8.encode "service T on l {}\n".toList))])]

/-- How the package in the directory is built. -/
def single : History :=
  [.ofModule "demo", .ofDocument ⟨0, "/demo/a.bal", "service T on l {}\n".toList⟩ .main]

theorem wellNamed_singleTree : singleTree.WellNamed := by
  have demo : FileTree.IsEntryName (.ofText "demo") := by constructor <;> decide +kernel
  have source : FileTree.IsEntryName (.ofText "a.bal") := by constructor <;> decide +kernel
  refine .directory (by decide +kernel) (List.forall_mem_singleton.mpr demo)
    (List.forall_mem_singleton.mpr ?_)
  exact .directory (by decide +kernel) (List.forall_mem_singleton.mpr source)
    (List.forall_mem_singleton.mpr (.file _))

theorem load_singleTree (reader : ManifestReader) :
    Package.load reader (singleTree.fileSystem []) "/demo" =
      .ok (single.package "demo" "/demo") := by
  have isDirectory : (singleTree.fileSystem []).isDirectory "/demo" := by decide +kernel
  have noManifest : ¬(singleTree.fileSystem []).isFile (entryPath "/demo" "Ballerina.toml") := by
    decide +kernel
  have noTests : ¬(singleTree.fileSystem []).isDirectory (entryPath "/demo" "tests") := by
    decide +kernel
  have noModules : ¬(singleTree.fileSystem []).isDirectory (entryPath "/demo" "modules") := by
    decide +kernel
  have sorted : (singleTree.fileSystem []).sortedNames "/demo" = .ok ["a.bal"] :=
    FileSystem.sortedNames_eq_ok_iff.mpr
      ⟨[.ofText "a.bal"], by decide +kernel, by decide +kernel, by decide +kernel⟩
  have isPlace :
      (singleTree.fileSystem []).location? "/demo" = some (["demo"].map FileName.ofText) := by
    decide +kernel
  have first : (singleTree.fileSystem []).moduleIn "demo" "/demo" =
      .ok ⟨"demo", [⟨"/demo/a.bal", Text.Utf8.encode "service T on l {}\n".toList⟩], []⟩ := by
    rw [FileSystem.moduleIn_eq_ok_iff, FileSystem.testsIn_eq_ok_iff, if_neg noTests,
      FileSystem.sourcesIn_eq_ok_iff]
    exact ⟨rfl, ⟨_, sorted, .cons ⟨by decide +kernel, by decide +kernel⟩ .nil⟩, rfl⟩
  have further : (singleTree.fileSystem []).furtherModules "demo" "/demo" = .ok [] := by
    rw [FileSystem.furtherModules_eq_ok_iff, if_neg noModules]
  exact Package.load_eq_ok_iff.mpr ⟨isDirectory, "demo", _, _,
    FileSystem.packageName_of_location? reader noManifest isPlace, first, further,
    by decide +kernel⟩

theorem converges_of_build?_mixed :
    (∃ package, Package.build? "demo" "/demo" mixed = some package ∧ package.hasErrors = false ∧
      (ofModify package false .text).writes =
        [("a.bal", "@http:ServiceConfig {serviceType: T}\nservice T on l {}\n".toList)] ∧
      (ofModify (package.apply package.edits) false .text).writes = []) ∧
    ∃ package tree, Package.build? "demo" "/demo" single = some package ∧
      package.hasErrors = false ∧
      Package.load Manifest.ofText? (singleTree.fileSystem []) "/demo" = .ok package ∧
      singleTree.writeAll [] [("/demo/a.bal",
        "@http:ServiceConfig {serviceType: T}\nservice T on l {}\n".toList)] = tree ∧
      Package.load Manifest.ofText? (tree.fileSystem []) "/demo" =
        .ok (package.apply package.edits) := by
  constructor
  · have built : Package.build? "demo" "/demo" mixed = some (mixed.package "demo" "/demo") := rfl
    have clean : (mixed.package "demo" "/demo").hasErrors = false := by decide +kernel
    obtain ⟨_, _, _, _, _, runs, _⟩ := converges_of_build? built clean rfl
    obtain ⟨first, second⟩ := runs false .text
    refine ⟨_, built, clean, ?_, ?_⟩
    · rw [first]
      decide +kernel
    · rw [second]
  · have built : Package.build? "demo" "/demo" single = some (single.package "demo" "/demo") := rfl
    have clean : (single.package "demo" "/demo").hasErrors = false := by decide +kernel
    have loaded := load_singleTree Manifest.ofText?
    obtain ⟨_, _, _, _, _, _, reload⟩ := converges_of_build? built clean rfl
    have again := reload Manifest.ofText? singleTree [] "/demo" .text wellNamed_singleTree loaded
    have isWritten : (ofModify (single.package "demo" "/demo") false .text).writes =
        [("/demo/a.bal", "@http:ServiceConfig {serviceType: T}\nservice T on l {}\n".toList)] := by
      decide +kernel
    exact ⟨_, _, built, clean, loaded, rfl, isWritten ▸ again⟩

end History

end ServiceAnnotator
