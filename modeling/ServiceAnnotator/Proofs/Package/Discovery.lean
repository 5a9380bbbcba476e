import Mathlib.Data.List.Nodup
import ServiceAnnotator.Proofs.Package.Listing
import ServiceAnnotator.Proofs.Package.Sources
import ServiceAnnotator.Toml.Manifest

/-!
# What a package is made of

Every source file of a package's directories becomes one document, and nothing else does. In which
order the directories are listed makes no difference.
-/

namespace ServiceAnnotator

namespace FileSystem

variable {system : FileSystem} {directory root : String}

/-- Whether an entry of a directory is a source file: a file with something in front of `.bal` in
its name. -/
def IsSourceFile (system : FileSystem) (directory name : String) : Prop :=
  (∃ stem ≠ [], name.toList = stem ++ ".bal".toList) ∧ system.isFile (entryPath directory name)

theorem isSource_iff {name : String} :
    system.isSource directory name = true ↔ system.IsSourceFile directory name := by
  have noDot : '.' ∉ "bal".toList := by decide
  rw [isSource, Bool.and_eq_true, decide_eq_true_iff, extension?_eq_some_iff, IsSourceFile]
  exact and_congr_left' (and_iff_right noDot)

/-- Files that are read from a directory: one for each source file, in the order of the names. -/
def HasSources (system : FileSystem) (directory : String) (files : List SourceFile) : Prop :=
  ∃ names, system.Selects directory (system.IsSourceFile directory) names ∧
    List.Forall₂ (system.Reads directory) names files

theorem hasSources_of_sourcesIn (proper : system.Proper)
    (isDirectory : system.isDirectory directory) {files : List SourceFile}
    (read : system.sourcesIn directory = .ok files) : system.HasSources directory files := by
  obtain ⟨names, sorted, reads⟩ := sourcesIn_eq_ok_iff.mp read
  have selects := selects_filter proper isDirectory sorted (system.isSource directory)
  simp only [isSource_iff] at selects
  exact ⟨_, selects, reads⟩

theorem hasSources_of_testsIn (proper : system.Proper) {files : List SourceFile}
    (read : system.testsIn directory = .ok files) :
    system.HasSources (entryPath directory "tests") files := by
  rw [testsIn_eq_ok_iff] at read
  split at read
  · rename_i isDirectory
    exact hasSources_of_sourcesIn proper isDirectory read
  · rename_i noDirectory
    rw [read]
    exact ⟨[], selects_nil (Bool.eq_false_iff.mpr noDirectory) _, .nil⟩

/-- The files of a module that is read from a directory. -/
structure HasModule (system : FileSystem) (directory : String) (sources : ModuleSources) :
    Prop where
  main : system.HasSources directory sources.main
  test : system.HasSources (entryPath directory "tests") sources.test

theorem hasModule_of_moduleIn (proper : system.Proper)
    (isDirectory : system.isDirectory directory) {name : String} {sources : ModuleSources}
    (read : system.moduleIn name directory = .ok sources) :
    sources.name = name ∧ system.HasModule directory sources := by
  obtain ⟨isName, main, test⟩ := moduleIn_eq_ok_iff.mp read
  exact ⟨isName, hasSources_of_sourcesIn proper isDirectory main, hasSources_of_testsIn proper test⟩

/-- The directories in the `modules` directory of a package, in the order of their names. -/
def HasDirectories (system : FileSystem) (root : String) (directories : List String) : Prop :=
  system.Selects (entryPath root "modules")
    (fun name => system.isDirectory (entryPath (entryPath root "modules") name)) directories

/-- The names and directories of a package's modules. -/
def places (name root : String) (directories : List String) : List (String × String) :=
  (name, root) :: directories.map fun directory =>
    (name ++ "." ++ directory, entryPath (entryPath root "modules") directory)

theorem hasDirectories_of_furtherModules (proper : system.Proper) {name : String}
    {modules : List ModuleSources} (read : system.furtherModules name root = .ok modules) :
    ∃ directories, system.HasDirectories root directories ∧
      List.Forall₂
        (fun directory sources => sources.name = name ++ "." ++ directory ∧
          system.HasModule (entryPath (entryPath root "modules") directory) sources)
        directories modules := by
  rw [furtherModules_eq_ok_iff] at read
  split at read
  · rename_i isDirectory
    obtain ⟨names, sorted, reads⟩ := read
    refine ⟨_, selects_filter proper isDirectory sorted _, ?_⟩
    have directories := (List.forall₂_and_left _ _).mpr
      ⟨fun _ inside => (List.mem_filter.mp inside).2, reads⟩
    exact directories.imp fun _ _ ⟨inner, isModule⟩ => hasModule_of_moduleIn proper inner isModule
  · rename_i noDirectory
    rw [read]
    exact ⟨[], selects_nil (Bool.eq_false_iff.mpr noDirectory) _, .nil⟩

/-! ## No path is read twice -/

theorem Selects.nodup {wanted : String → Prop} {names : List String}
    (selects : system.Selects directory wanted names) : names.Nodup := by
  refine selects.increasing.imp ?_
  rintro name _ less rfl
  exact List.lt_irrefl _ less

theorem Selects.isPlainName (proper : system.Proper) {wanted : String → Prop} {names : List String}
    (selects : system.Selects directory wanted names) {name : String} (inside : name ∈ names) :
    IsPlainName name := by
  obtain ⟨_, entries, listed, isEntry⟩ := ((selects.exact name).mp inside).1
  obtain ⟨notEmpty, noSlash⟩ := proper.plain _ _ listed _ isEntry
  exact isPlainName_of_ofText notEmpty noSlash

/-- Whether a path leads to an entry of the directory that some names lead to. -/
def LiesIn (root : String) (way : List String) (path : String) : Prop :=
  ∃ name, IsPlainName name ∧ (way ++ [name]).foldl entryPath root = path

/-- A path leads to an entry of one directory only. -/
theorem LiesIn.unique {way other : List String} {path : String}
    (plain : ∀ name ∈ way, IsPlainName name) (plainOther : ∀ name ∈ other, IsPlainName name)
    (here : LiesIn root way path) (there : LiesIn root other path) : way = other := by
  obtain ⟨name, isPlain, rfl⟩ := here
  obtain ⟨otherName, otherPlain, same⟩ := there
  have sameNames := foldl_entryPath_inj
    (List.forall_mem_append.mpr ⟨plainOther, List.forall_mem_singleton.mpr otherPlain⟩)
    (List.forall_mem_append.mpr ⟨plain, List.forall_mem_singleton.mpr isPlain⟩)
    (by simp) (by simp) same
  exact (List.append_inj' sameNames rfl).1.symm

/-- The paths of files that are read by their names. -/
theorem map_path_of_reads {names : List String} {files : List SourceFile}
    (reads : List.Forall₂ (system.Reads directory) names files) :
    files.map SourceFile.path = names.map (entryPath directory) := by
  rw [eq_comm, ← List.forall₂_eq_eq_eq, List.forall₂_map_left_iff, List.forall₂_map_right_iff]
  exact reads.imp fun _ _ isFile => isFile.1.symm

theorem HasSources.paths (proper : system.Proper) {way : List String} {files : List SourceFile}
    (sources : system.HasSources (way.foldl entryPath root) files) :
    (files.map SourceFile.path).Nodup ∧
      ∀ path ∈ files.map SourceFile.path, LiesIn root way path := by
  obtain ⟨names, selects, reads⟩ := sources
  rw [map_path_of_reads reads]
  constructor
  · refine selects.nodup.map ?_
    intro name other same
    have sameText := congrArg String.toList same
    rw [toList_entryPath, toList_entryPath] at sameText
    exact String.toList_inj.mp (List.append_cancel_left sameText)
  · rintro _ inside
    obtain ⟨name, isName, rfl⟩ := List.mem_map.mp inside
    exact ⟨name, selects.isPlainName proper isName, List.foldl_concat ..⟩

/-- Files of different directories have different paths. -/
theorem nodup_paths (proper : system.Proper) {groups : List (List String × List SourceFile)}
    (distinct : (groups.map Prod.fst).Nodup)
    (plain : ∀ group ∈ groups, ∀ name ∈ group.1, IsPlainName name)
    (sources : ∀ group ∈ groups, system.HasSources (group.1.foldl entryPath root) group.2) :
    ((groups.flatMap Prod.snd).map SourceFile.path).Nodup := by
  rw [List.map_flatMap, List.nodup_flatMap]
  refine ⟨fun group inside => ((sources group inside).paths proper).1, ?_⟩
  refine (List.pairwise_map.mp distinct).imp_of_mem ?_
  intro group other inside insideOther differ path here there
  exact differ (LiesIn.unique (plain group inside) (plain other insideOther)
    (((sources group inside).paths proper).2 path here)
    (((sources other insideOther).paths proper).2 path there))

/-- The ways to the two directories of a module. -/
def halves (way : List String) : List (List String) := [way, way ++ ["tests"]]

/-- What holds of the names on a way and of `tests` holds of the names on the ways to both
directories. -/
theorem forall_of_mem_halves {wanted : String → Prop} (ofTests : wanted "tests")
    {way half : List String} (ofWay : ∀ name ∈ way, wanted name) (isHalf : half ∈ halves way) :
    ∀ name ∈ half, wanted name := by
  rcases List.mem_pair.mp isHalf with rfl | rfl
  · exact ofWay
  · exact List.forall_mem_append.mpr ⟨ofWay, List.forall_mem_singleton.mpr ofTests⟩

/-- The files of modules, each half with the way to its directory. -/
def groups (ways : List (List String)) (modules : List ModuleSources) :
    List (List String × List SourceFile) :=
  (ways.zip modules).flatMap fun entry =>
    [(entry.1, entry.2.main), (entry.1 ++ ["tests"], entry.2.test)]

theorem map_fst_groups {ways : List (List String)} {modules : List ModuleSources}
    (same : ways.length = modules.length) :
    (groups ways modules).map Prod.fst = ways.flatMap halves := by
  conv_rhs => rw [← List.map_fst_zip (Nat.le_of_eq same)]
  simp [groups, List.map_flatMap, List.flatMap_map, halves]

theorem flatMap_snd_groups {ways : List (List String)} {modules : List ModuleSources}
    (same : ways.length = modules.length) :
    (groups ways modules).flatMap Prod.snd = modules.flatMap ModuleSources.files := by
  conv_rhs => rw [← List.map_snd_zip (Nat.le_of_eq same.symm)]
  simp [groups, List.flatMap_assoc, List.flatMap_map, ModuleSources.files]

theorem hasSources_of_mem_groups {ways : List (List String)} {modules : List ModuleSources}
    (sources : List.Forall₂ (fun way sources => system.HasModule (way.foldl entryPath root) sources)
      ways modules)
    {group : List String × List SourceFile} (inside : group ∈ groups ways modules) :
    (∃ way ∈ ways, group.1 ∈ halves way) ∧
      system.HasSources (group.1.foldl entryPath root) group.2 := by
  obtain ⟨⟨way, files⟩, isPair, isGroup⟩ := List.mem_flatMap.mp inside
  have isModule := List.forall₂_zip sources isPair
  have isWay : way ∈ ways := (List.of_mem_zip isPair).1
  rcases List.mem_pair.mp isGroup with rfl | rfl
  · exact ⟨⟨way, isWay, List.mem_cons_self⟩, isModule.main⟩
  · refine ⟨⟨way, isWay, by simp [halves]⟩, ?_⟩
    rw [List.foldl_concat]
    exact isModule.test

/-- The files of modules have different paths if no directory belongs to two of them. -/
theorem nodup_paths_of_modules (proper : system.Proper) {ways : List (List String)}
    {modules : List ModuleSources} (distinct : (ways.flatMap halves).Nodup)
    (plain : ∀ way ∈ ways, ∀ name ∈ way, IsPlainName name)
    (sources : List.Forall₂ (fun way sources => system.HasModule (way.foldl entryPath root) sources)
      ways modules) :
    ((modules.flatMap ModuleSources.files).map SourceFile.path).Nodup := by
  have same := sources.length_eq
  rw [← flatMap_snd_groups same]
  refine nodup_paths proper (map_fst_groups same ▸ distinct) (fun group inside => ?_)
    fun group inside => (hasSources_of_mem_groups sources inside).2
  obtain ⟨way, isWay, isHalf⟩ := (hasSources_of_mem_groups sources inside).1
  exact forall_of_mem_halves ⟨by decide, by decide⟩ (plain way isWay) isHalf

/-- The ways to the modules of a package. -/
def ways (directories : List String) : List (List String) :=
  [] :: directories.map fun directory => ["modules", directory]

/-- What holds of the directories' names and of `modules` holds of the names on the ways to
modules. -/
theorem forall_of_mem_ways {wanted : String → Prop} (ofModules : wanted "modules")
    {directories : List String} (ofDirectories : ∀ directory ∈ directories, wanted directory)
    {way : List String} (isWay : way ∈ ways directories) : ∀ name ∈ way, wanted name := by
  rcases List.mem_cons.mp isWay with rfl | isFurtherWay
  · exact nofun
  · obtain ⟨directory, isDirectory, rfl⟩ := List.mem_map.mp isFurtherWay
    exact List.forall_mem_cons.mpr
      ⟨ofModules, List.forall_mem_singleton.mpr (ofDirectories directory isDirectory)⟩

/-- No directory of a package belongs to two of its modules. -/
theorem nodup_ways {directories : List String} (distinct : directories.Nodup) :
    ((ways directories).flatMap halves).Nodup := by
  rw [ways, List.flatMap_cons, List.flatMap_map]
  have apart : (directories.flatMap fun directory => halves ["modules", directory]).Nodup := by
    rw [List.nodup_flatMap]
    refine ⟨fun directory _ => by simp [halves], distinct.imp ?_⟩
    intro directory other differ
    simp [halves, differ.symm]
  simpa [halves] using apart

/-! ## The order of listings -/

/-- File systems that differ at most in the order in which they list the entries of directories. -/
structure SameEntries (system other : FileSystem) : Prop where
  kind : other.kind? = system.kind?
  content : other.content? = system.content?
  location : other.location? = system.location?
  names : ∀ directory, Option.Rel List.Perm (system.names? directory) (other.names? directory)

variable {other : FileSystem}

theorem SameEntries.sortedNames_eq_ok_iff (same : system.SameEntries other) {names : List String} :
    other.sortedNames directory = .ok names ↔ system.sortedNames directory = .ok names := by
  have listed := same.names directory
  rw [FileSystem.sortedNames_eq_ok_iff, FileSystem.sortedNames_eq_ok_iff]
  generalize system.names? directory = here at listed ⊢
  generalize other.names? directory = there at listed ⊢
  cases listed with
  | none => rfl
  | some isPerm => simp only [Option.some.injEq, exists_eq_left', isPerm.congr_right]

/-- So no package that is read depends on the order of a listing. -/
theorem SameEntries.load_eq_ok_iff (same : system.SameEntries other) {reader : ManifestReader}
    {package : Package} :
    Package.load reader other root = .ok package ↔
      Package.load reader system root = .ok package := by
  have sorted {directory : String} {names : List String} :
      other.sortedNames directory = .ok names ↔ system.sortedNames directory = .ok names :=
    same.sortedNames_eq_ok_iff
  obtain ⟨kind?, content?, names?, location?⟩ := other
  obtain ⟨rfl, rfl, rfl, _⟩ := same
  simp only [Package.load_eq_ok_iff, moduleIn_eq_ok_iff, furtherModules_eq_ok_iff,
    testsIn_eq_ok_iff, sourcesIn_eq_ok_iff, sorted]
  rfl

/-! ## The package of a directory -/

/-- The documents of a half of a module: one for each source file of a directory, in the order of
the names. -/
def Lists (system : FileSystem) (package : Package) (owner : ModuleId) (directory : String)
    (ids : List DocumentId) : Prop :=
  ∃ names, system.Selects directory (system.IsSourceFile directory) names ∧
    List.Forall₂
      (fun name id => ∃ content, system.content? (entryPath directory name) = some content ∧
        package.documents[id]? =
          some ⟨⟨owner, entryPath directory name, Text.Utf8.decodeLossy content⟩, id⟩)
      names ids

/-- A module of a package with its number: it keeps the number, and it has the name and the
documents that its place tells. -/
structure IsModule (system : FileSystem) (package : Package) (place : String × String)
    (entry : PackageModule × ModuleId) : Prop where
  id : entry.1.id = entry.2
  name : entry.1.name = place.1
  main : system.Lists package entry.2 place.2 entry.1.main
  test : system.Lists package entry.2 (entryPath place.2 "tests") entry.1.test

/-- A package is what a directory says. -/
structure Discovers (system : FileSystem) (reader : ManifestReader) (root : String)
    (package : Package) : Prop where
  isRoot : package.root = root
  isName : system.packageName reader root = .ok package.name
  /-- The modules are those of the root and of the directories in `modules`, in order. -/
  modules : ∃ directories, system.HasDirectories root directories ∧
    List.Forall₂ (system.IsModule package) (places package.name root directories)
      package.modules.zipIdx
  /-- Module by module, main documents first, the documents are numbered one after the other. -/
  numbered : (package.modules.flatMap fun found => found.main ++ found.test) =
    List.range package.documents.length
  /-- No file is read twice. -/
  distinct : (package.documents.map (·.path)).Nodup

/-- Numbers that lead to the documents of a directory's files list its source files. -/
theorem lists_of_hasSources {package : Package} {owner : ModuleId} {files : List SourceFile}
    {ids : List DocumentId} (sources : system.HasSources directory files)
    (numbers : ModuleSources.Numbers package.documents owner files ids) :
    system.Lists package owner directory ids := by
  obtain ⟨names, selects, reads⟩ := sources
  refine ⟨names, selects, (forall₂_comp reads numbers).imp ?_⟩
  rintro name id ⟨file, ⟨isPath, isContent⟩, isDocument⟩
  rw [SourceFile.document, isPath] at isDocument
  exact ⟨file.content, isPath ▸ isContent, isDocument⟩

/-- The modules of a package that is read have their names and files from their places. -/
theorem exists_modules_of_load (proper : system.Proper) {reader : ManifestReader}
    {package : Package} (loaded : Package.load reader system root = .ok package) :
    ∃ name modules directories, system.packageName reader root = .ok name ∧
      package = Package.ofSources name root modules ∧ system.HasDirectories root directories ∧
      List.Forall₂ (fun place sources => sources.name = place.1 ∧ system.HasModule place.2 sources)
        (places name root directories) modules := by
  obtain ⟨isDirectory, name, first, further, isName, isFirst, isFurther, rfl⟩ :=
    Package.load_eq_ok_iff.mp loaded
  obtain ⟨firstName, isModule⟩ := hasModule_of_moduleIn proper isDirectory isFirst
  obtain ⟨directories, isHeld, areModules⟩ := hasDirectories_of_furtherModules proper isFurther
  exact ⟨name, first :: further, directories, isName, rfl, isHeld,
    .cons ⟨firstName, isModule⟩ (List.forall₂_map_left_iff.mpr areModules)⟩

/-- The directories of modules, told by the ways to them. -/
theorem hasModule_ways {name : String} {directories : List String} {modules : List ModuleSources}
    (inPlaces : List.Forall₂
      (fun place sources => sources.name = place.1 ∧ system.HasModule place.2 sources)
      (places name root directories) modules) :
    List.Forall₂ (fun way sources => system.HasModule (way.foldl entryPath root) sources)
      (ways directories) modules := by
  have sameDirectories : (places name root directories).map Prod.snd =
      (ways directories).map (List.foldl entryPath root) := by
    simp [places, ways]
  have inDirectories : List.Forall₂ system.HasModule
      ((places name root directories).map Prod.snd) modules :=
    List.forall₂_map_left_iff.mpr (inPlaces.imp fun _ _ found => found.2)
  rwa [sameDirectories, List.forall₂_map_left_iff] at inDirectories

/-- All names on the way to a module are plain. -/
theorem HasDirectories.isPlainName (proper : system.Proper) {directories : List String}
    (isHeld : system.HasDirectories root directories) {way : List String}
    (isWay : way ∈ ways directories) : ∀ name ∈ way, IsPlainName name :=
  forall_of_mem_ways ⟨by decide, by decide⟩
    (fun _ isDirectory => Selects.isPlainName proper isHeld isDirectory) isWay

/-- No file is read twice. -/
theorem nodup_paths_of_load (proper : system.Proper) {reader : ManifestReader} {package : Package}
    (loaded : Package.load reader system root = .ok package) :
    (package.documents.map (·.path)).Nodup := by
  obtain ⟨name, modules, directories, _, rfl, isHeld, inPlaces⟩ :=
    exists_modules_of_load proper loaded
  rw [Package.ofSources_eq, ModuleSources.map_path_documentsFrom]
  exact nodup_paths_of_modules proper (nodup_ways isHeld.nodup)
    (fun way isWay => isHeld.isPlainName proper isWay) (hasModule_ways inPlaces)

/-- A package that is read from a directory has one document for each source file of its modules'
directories, in the order of their names, and nothing else; in which order the directories are
listed makes no difference. -/
theorem discovers_of_load (proper : system.Proper) {reader : ManifestReader} {package : Package}
    (loaded : Package.load reader system root = .ok package) :
    system.Discovers reader root package ∧
      ∀ other, system.SameEntries other → Package.load reader other root = .ok package := by
  refine ⟨?_, fun other same => same.load_eq_ok_iff.mpr loaded⟩
  have distinct := nodup_paths_of_load proper loaded
  obtain ⟨name, modules, directories, isName, rfl, isHeld, inPlaces⟩ :=
    exists_modules_of_load proper loaded
  have numbers := ModuleSources.forall₂_modulesFrom 0 modules []
  rw [Package.ofSources_eq] at distinct ⊢
  refine ⟨rfl, isName, ⟨directories, isHeld, ?_⟩, ?_, distinct⟩
  · refine (forall₂_comp inPlaces numbers).imp ?_
    rintro place ⟨found, owner⟩ ⟨sources, ⟨isPlace, files⟩, isNumber, sameName, main, test⟩
    exact ⟨isNumber, sameName.trans isPlace, lists_of_hasSources files.main main,
      lists_of_hasSources files.test test⟩
  · rw [ModuleSources.flatMap_modulesFrom, ModuleSources.length_documentsFrom,
      List.range_eq_range']

theorem proper_demo : demo.Proper := by
  have rows : ∀ row ∈ demoEntries, row.2.Nodup ∧ ∀ entry ∈ row.2, entry ≠ [] ∧ 0x2f ∉ entry := by
    decide +kernel
  have isRow {directory : String} {entries : List FileName}
      (listed : demo.names? directory = some entries) : (directory, entries) ∈ demoEntries := by
    obtain ⟨before, after, isSplit, _⟩ := List.lookup_eq_some_iff.mp listed
    exact isSplit ▸ List.mem_append_right before List.mem_cons_self
  exact ⟨fun _ _ listed => (rows _ (isRow listed)).1, fun _ _ listed => (rows _ (isRow listed)).2⟩

/-- `demo` with every directory listed the other way round. -/
def demoReversed : FileSystem :=
  { demo with names? := fun directory => (demo.names? directory).map List.reverse }

theorem discovers_of_load_demo :
    demo.Proper ∧ Package.load Manifest.ofText? demo "/demo" = .ok demoPackage ∧
      demo.Discovers Manifest.ofText? "/demo" demoPackage ∧
      Package.load Manifest.ofText? demoReversed "/demo" = .ok demoPackage := by
  have loaded := load_demo Manifest.ofText?
  obtain ⟨discovers, anyOrder⟩ := discovers_of_load proper_demo loaded
  refine ⟨proper_demo, loaded, discovers, anyOrder demoReversed ⟨rfl, rfl, rfl, ?_⟩⟩
  intro directory
  have isReversed : demoReversed.names? directory =
      (demo.names? directory).map List.reverse := rfl
  rw [isReversed]
  cases demo.names? directory with
  | none => exact .none
  | some entries => exact .some (List.reverse_perm entries).symm

end FileSystem

end ServiceAnnotator
