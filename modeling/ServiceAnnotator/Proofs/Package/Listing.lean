import Mathlib.Data.List.Perm.Basic
import ServiceAnnotator.Package.Discovery
import ServiceAnnotator.Proofs.FileSystem.Path
import ServiceAnnotator.Proofs.Text.Utf8

/-!
# What is read from directories

The names in a directory are sorted before any of them is used, so that it does not matter in which
order they are listed. What a reader of directories gives is told here by what has to be there for
it.
-/

namespace ServiceAnnotator

/-! ## Computations that succeed -/

section

variable {ε α β γ : Type}

theorem bind_eq_ok_iff {first : Except ε α} {further : α → Except ε β} {result : β} :
    first >>= further = .ok result ↔
      ∃ between, first = .ok between ∧ further between = .ok result := by
  cases first with
  | error reason => exact ⟨nofun, nofun⟩
  | ok between => exact ⟨fun goesOn => ⟨between, rfl, goesOn⟩, fun ⟨_, rfl, goesOn⟩ => goesOn⟩

theorem pure_eq_ok_iff {value result : α} :
    (pure value : Except ε α) = .ok result ↔ result = value :=
  ⟨fun same => (Except.ok.inj same).symm, fun same => congrArg _ same.symm⟩

/-- A list is gone through if each of its elements gives a result. -/
theorem mapM_eq_ok_iff {f : α → Except ε β} {as : List α} {bs : List β} :
    as.mapM f = .ok bs ↔ List.Forall₂ (fun a b => f a = .ok b) as bs := by
  constructor
  · intro succeeds
    induction as generalizing bs with
    | nil =>
      obtain rfl := Except.ok.inj succeeds
      exact .nil
    | cons a as ih =>
      simp only [List.mapM_cons, bind_eq_ok_iff, pure_eq_ok_iff] at succeeds
      obtain ⟨b, isHead, others, isTail, rfl⟩ := succeeds
      exact .cons isHead (ih isTail)
  · intro related
    induction related with
    | nil => rfl
    | cons isHead _ isTail =>
      rw [List.mapM_cons, isHead, isTail]
      rfl

theorem forall₂_comp {R : α → β → Prop} {S : β → γ → Prop} {as : List α} {bs : List β} {cs : List γ}
    (first : List.Forall₂ R as bs) (second : List.Forall₂ S bs cs) :
    List.Forall₂ (fun a c => ∃ b, R a b ∧ S b c) as cs := by
  induction first generalizing cs with
  | nil =>
    cases second
    exact .nil
  | cons isFirst _ ih =>
    cases second with
    | cons isSecond second => exact .cons ⟨_, isFirst, isSecond⟩ (ih second)

end

/-! ## Names and their bytes -/

/-- Sorting gives the one list with the same names in order. -/
theorem mergeSort_eq_iff {names sorted : List String} :
    names.mergeSort (fun a b => decide (FileName.ofText a ≤ FileName.ofText b)) = sorted ↔
      sorted.Perm names ∧ (sorted.map FileName.ofText).Pairwise (· ≤ ·) := by
  have trans (a b c : String) (first : decide (FileName.ofText a ≤ FileName.ofText b))
      (second : decide (FileName.ofText b ≤ FileName.ofText c)) :
      decide (FileName.ofText a ≤ FileName.ofText c) :=
    decide_eq_true (List.le_trans (of_decide_eq_true first) (of_decide_eq_true second))
  have total (a b : String) : decide (FileName.ofText a ≤ FileName.ofText b) ||
      decide (FileName.ofText b ≤ FileName.ofText a) := by
    simpa using List.le_total (FileName.ofText a) (FileName.ofText b)
  have increasing := (List.pairwise_mergeSort trans total names).imp of_decide_eq_true
  rw [List.pairwise_map]
  constructor
  · rintro rfl
    exact ⟨List.mergeSort_perm .., increasing⟩
  · rintro ⟨isPerm, isSorted⟩
    refine List.Perm.eq_of_pairwise (fun a b _ _ ab ba => ?_) increasing isSorted
      ((List.mergeSort_perm ..).trans isPerm.symm)
    exact FileName.ofText_inj (List.le_antisymm ab ba)

namespace FileSystem

variable {system : FileSystem} {directory root : String}

theorem nameText_eq_ok_iff {entry : FileName} {name : String} :
    nameText directory entry = .ok name ↔ entry = FileName.ofText name := by
  rw [nameText]
  split
  · rename_i cs isText
    rw [← Text.Utf8.decode?_eq_some_iff.mp isText, Except.ok.injEq]
    constructor
    · rintro rfl
      rw [FileName.ofText, String.toList_ofList]
    · intro same
      rw [Text.Utf8.encode_inj same, String.ofList_toList]
  · rename_i noText
    simp only [reduceCtorEq, false_iff]
    intro same
    rw [same, FileName.ofText, Text.Utf8.decode?_encode] at noText
    cases noText

/-- Names are read if all of them are valid UTF-8, and then in the order of their bytes. -/
theorem sortedNames_eq_ok_iff {names : List String} :
    system.sortedNames directory = .ok names ↔
      ∃ entries, system.names? directory = some entries ∧
        (names.map FileName.ofText).Perm entries ∧
        (names.map FileName.ofText).Pairwise (· ≤ ·) := by
  rw [sortedNames]
  cases system.names? directory with
  | none => simp
  | some entries =>
    have reordered := congrFun₂ (List.eq_map_comp_perm FileName.ofText) entries names
    simp only [bind_eq_ok_iff, pure_eq_ok_iff, mapM_eq_ok_iff, nameText_eq_ok_iff, Option.some.injEq,
      exists_eq_left', eq_comm (a := names), mergeSort_eq_iff]
    simp only [← List.forall₂_map_right_iff, List.forall₂_eq_eq_eq]
    rw [List.perm_comm, ← reordered, Relation.Comp]
    have comm (texts : List String) : names.Perm texts ↔ texts.Perm names := List.perm_comm
    simp only [comm, ← and_assoc, exists_and_right]

/-- Whether a directory holds an entry of a name. -/
def Holds (system : FileSystem) (directory name : String) : Prop :=
  system.isDirectory directory ∧
    ∃ entries, system.names? directory = some entries ∧ FileName.ofText name ∈ entries

/-- The names are those of the entries of a directory that are wanted, in the order of their bytes.
No entry is left out because its name is not a text. -/
structure Selects (system : FileSystem) (directory : String) (wanted : String → Prop)
    (names : List String) : Prop where
  increasing : names.Pairwise fun name next => FileName.ofText name < FileName.ofText next
  exact : ∀ name, name ∈ names ↔ system.Holds directory name ∧ wanted name
  texts : ∀ entries, system.isDirectory directory → system.names? directory = some entries →
    ∀ entry ∈ entries, ∃ name, FileName.ofText name = entry

/-- What is not a directory holds nothing. -/
theorem selects_nil (noDirectory : system.isDirectory directory = false) (wanted : String → Prop) :
    system.Selects directory wanted [] where
  increasing := .nil
  exact := by simp [Holds, noDirectory]
  texts := by simp [noDirectory]

/-- The names that are read and wanted are selected. -/
theorem selects_filter (proper : system.Proper) (isDirectory : system.isDirectory directory)
    {names : List String} (sorted : system.sortedNames directory = .ok names)
    (wanted : String → Bool) :
    system.Selects directory (wanted · = true) (names.filter wanted) := by
  obtain ⟨entries, listed, isPerm, isSorted⟩ := sortedNames_eq_ok_iff.mp sorted
  have mem (name : String) : name ∈ names ↔ FileName.ofText name ∈ entries := by
    rw [← isPerm.mem_iff]
    exact (List.mem_map_of_injective fun _ _ => FileName.ofText_inj).symm
  have distinct := isPerm.nodup_iff.mpr (proper.once directory entries listed)
  refine ⟨?_, fun name => ?_, ?_⟩
  · have increasing := (List.pairwise_map.mp isSorted).and (List.pairwise_map.mp distinct)
    exact (increasing.imp fun ⟨le, ne⟩ => Std.lt_of_le_of_ne le ne).filter wanted
  · simp [Holds, isDirectory, listed, mem]
  · intro others _ same entry inside
    obtain rfl := Option.some.inj (listed.symm.trans same)
    obtain ⟨name, _, isEntry⟩ := List.mem_map.mp (isPerm.mem_iff.mpr inside)
    exact ⟨name, isEntry⟩

/-! ## Files -/

/-- A file that is read from a directory by its name. -/
def Reads (system : FileSystem) (directory name : String) (file : SourceFile) : Prop :=
  file.path = entryPath directory name ∧ system.content? file.path = some file.content

theorem sourceFile_eq_ok_iff {name : String} {file : SourceFile} :
    system.sourceFile (entryPath directory name) = .ok file ↔ system.Reads directory name file := by
  obtain ⟨path, content⟩ := file
  rw [sourceFile, Reads]
  cases isContent : system.content? (entryPath directory name) with
  | none =>
    simp only [reduceCtorEq, false_iff, not_and]
    rintro rfl
    simp [isContent]
  | some found =>
    simp only [Except.ok.injEq, SourceFile.mk.injEq]
    constructor
    · rintro ⟨rfl, rfl⟩
      exact ⟨rfl, isContent⟩
    · rintro ⟨rfl, same⟩
      exact ⟨rfl, Option.some.inj (isContent.symm.trans same)⟩

theorem sourcesIn_eq_ok_iff {files : List SourceFile} :
    system.sourcesIn directory = .ok files ↔
      ∃ names, system.sortedNames directory = .ok names ∧
        List.Forall₂ (system.Reads directory) (names.filter (system.isSource directory)) files := by
  simp only [sourcesIn, bind_eq_ok_iff, mapM_eq_ok_iff, sourceFile_eq_ok_iff]

theorem testsIn_eq_ok_iff {files : List SourceFile} :
    system.testsIn directory = .ok files ↔
      if system.isDirectory (entryPath directory "tests") then
        system.sourcesIn (entryPath directory "tests") = .ok files
      else files = [] := by
  simp only [testsIn]
  split
  · rfl
  · rw [Except.ok.injEq, eq_comm]

theorem moduleIn_eq_ok_iff {name : String} {sources : ModuleSources} :
    system.moduleIn name directory = .ok sources ↔
      sources.name = name ∧ system.sourcesIn directory = .ok sources.main ∧
        system.testsIn directory = .ok sources.test := by
  obtain ⟨moduleName, main, test⟩ := sources
  simp only [moduleIn, bind_eq_ok_iff, pure_eq_ok_iff, ModuleSources.mk.injEq]
  constructor
  · rintro ⟨_, isMain, _, isTest, rfl, rfl, rfl⟩
    exact ⟨rfl, isMain, isTest⟩
  · rintro ⟨rfl, isMain, isTest⟩
    exact ⟨main, isMain, test, isTest, rfl, rfl, rfl⟩

theorem furtherModules_eq_ok_iff {name : String} {modules : List ModuleSources} :
    system.furtherModules name root = .ok modules ↔
      if system.isDirectory (entryPath root "modules") then
        ∃ names, system.sortedNames (entryPath root "modules") = .ok names ∧
          List.Forall₂
            (fun entry sources => system.moduleIn (name ++ "." ++ entry)
              (entryPath (entryPath root "modules") entry) = .ok sources)
            (names.filter fun entry =>
              system.isDirectory (entryPath (entryPath root "modules") entry)) modules
      else modules = [] := by
  simp only [furtherModules]
  split
  · simp only [bind_eq_ok_iff, mapM_eq_ok_iff]
  · exact pure_eq_ok_iff

/-- Without a manifest a package has the name of its directory. -/
theorem packageName_of_location? (reader : ManifestReader)
    (noManifest : ¬system.isFile (entryPath root "Ballerina.toml")) {names : List String}
    (isPlace : system.location? root = some (names.map FileName.ofText)) :
    system.packageName reader root = .ok (names.getLast?.getD "main") := by
  have unnamed : system.manifestName? reader root = .ok none := by
    simp only [manifestName?]
    rw [if_neg noManifest]
  have areTexts : (names.map FileName.ofText).mapM Text.Utf8.decode? =
      some (names.map String.toList) := by
    clear isPlace
    induction names with
    | nil => rfl
    | cons name names ih =>
      rw [List.map_cons, List.mapM_cons, FileName.ofText, Text.Utf8.decode?_encode, ih]
      rfl
  refine bind_eq_ok_iff.mpr ⟨none, unnamed, ?_⟩
  simp only [directoryName, isPlace, Option.bind_some, areTexts, List.getLast?_map, Option.map_map,
    Function.comp_def, String.ofList_toList, Option.map_id']

end FileSystem

/-- A package is read if all of its modules are. -/
theorem Package.load_eq_ok_iff {reader : ManifestReader} {system : FileSystem} {root : String}
    {package : Package} :
    Package.load reader system root = .ok package ↔
      system.isDirectory root ∧
        ∃ name first further, system.packageName reader root = .ok name ∧
          system.moduleIn name root = .ok first ∧
          system.furtherModules name root = .ok further ∧
          package = Package.ofSources name root (first :: further) := by
  rw [Package.load]
  split
  · rename_i isDirectory
    simp only [bind_eq_ok_iff, pure_eq_ok_iff, isDirectory, true_and, ← exists_and_left]
  · rename_i noDirectory
    simp only [reduceCtorEq, noDirectory, false_and]

namespace FileSystem

/-! ## A package to read -/

/-- The entries of the directories of `demo`. -/
def demoEntries : List (String × List FileName) :=
  [("/demo", ["tests", "old.bal", "modules", "main.bal", ".bal"].map FileName.ofText),
    ("/demo/old.bal", []), ("/demo/tests", [FileName.ofText "t.bal"]),
    ("/demo/modules", [FileName.ofText "util"]), ("/demo/modules/util", [FileName.ofText "u.bal"])]

/-- A package with a further module and a test that is not valid UTF-8. Neither the directory
`old.bal` nor the file `.bal` is a source file. -/
def demo : FileSystem where
  kind? path :=
    [("/demo", NodeKind.directory), ("/demo/main.bal", .file), ("/demo/.bal", .file),
      ("/demo/old.bal", .directory), ("/demo/tests", .directory), ("/demo/tests/t.bal", .file),
      ("/demo/modules", .directory), ("/demo/modules/util", .directory),
      ("/demo/modules/util/u.bal", .file)].lookup path
  content? path :=
    [("/demo/main.bal", Text.Utf8.encode "service S on l {}\n".toList), ("/demo/.bal", []),
      ("/demo/tests/t.bal", [0x78, 0xc3, 0xa9, 0xff]), ("/demo/modules/util/u.bal", [])].lookup path
  names? path := demoEntries.lookup path
  location? path := [("/demo", [FileName.ofText "demo"])].lookup path

/-- What is read from `demo`. -/
def demoPackage : Package where
  name := "demo"
  root := "/demo"
  modules := [⟨0, "demo", [0], [1]⟩, ⟨1, "demo.util", [2], []⟩]
  documents :=
    [⟨⟨0, "/demo/main.bal", "service S on l {}\n".toList⟩, 0⟩,
      ⟨⟨0, "/demo/tests/t.bal", ['x', 'é', '\ufffd']⟩, 1⟩, ⟨⟨1, "/demo/modules/util/u.bal", []⟩, 2⟩]
  loadDiagnostics := [⟨1, .error, "file is not valid UTF-8", .empty 3⟩]

/-- The files of `demo` are found, and the one that is not valid UTF-8 is reported. -/
theorem load_demo (reader : ManifestReader) :
    Package.load reader demo "/demo" = .ok demoPackage := by
  have inRoot : demo.sortedNames "/demo" =
      .ok [".bal", "main.bal", "modules", "old.bal", "tests"] :=
    sortedNames_eq_ok_iff.mpr ⟨_, rfl, by decide +kernel, by decide +kernel⟩
  have inTests : demo.sortedNames "/demo/tests" = .ok ["t.bal"] :=
    sortedNames_eq_ok_iff.mpr ⟨_, rfl, by decide +kernel, by decide +kernel⟩
  have inModules : demo.sortedNames "/demo/modules" = .ok ["util"] :=
    sortedNames_eq_ok_iff.mpr ⟨_, rfl, by decide +kernel, by decide +kernel⟩
  have inUtil : demo.sortedNames "/demo/modules/util" = .ok ["u.bal"] :=
    sortedNames_eq_ok_iff.mpr ⟨_, rfl, by decide +kernel, by decide +kernel⟩
  have isTests : entryPath "/demo" "tests" = "/demo/tests" := by decide +kernel
  have isModules : entryPath "/demo" "modules" = "/demo/modules" := by decide +kernel
  have isUtil : entryPath "/demo/modules" "util" = "/demo/modules/util" := by decide +kernel
  have noManifest : ¬demo.isFile (entryPath "/demo" "Ballerina.toml") := by decide +kernel
  have isPlace : demo.location? "/demo" = some (["demo"].map FileName.ofText) := rfl
  have first : demo.moduleIn "demo" "/demo" = .ok
      ⟨"demo", [⟨"/demo/main.bal", Text.Utf8.encode "service S on l {}\n".toList⟩],
        [⟨"/demo/tests/t.bal", [0x78, 0xc3, 0xa9, 0xff]⟩]⟩ := by
    have isDirectory : demo.isDirectory "/demo/tests" := rfl
    rw [moduleIn_eq_ok_iff, testsIn_eq_ok_iff, isTests, if_pos isDirectory, sourcesIn_eq_ok_iff,
      sourcesIn_eq_ok_iff]
    exact ⟨rfl, ⟨_, inRoot, .cons ⟨rfl, rfl⟩ .nil⟩, ⟨_, inTests, .cons ⟨rfl, rfl⟩ .nil⟩⟩
  have further : demo.furtherModules "demo" "/demo" = .ok
      [⟨"demo.util", [⟨"/demo/modules/util/u.bal", []⟩], []⟩] := by
    have isDirectory : demo.isDirectory "/demo/modules" := rfl
    have noTests : ¬demo.isDirectory (entryPath "/demo/modules/util" "tests") := by decide +kernel
    have util : demo.moduleIn "demo.util" "/demo/modules/util" = .ok
        ⟨"demo.util", [⟨"/demo/modules/util/u.bal", []⟩], []⟩ := by
      rw [moduleIn_eq_ok_iff, testsIn_eq_ok_iff, if_neg noTests, sourcesIn_eq_ok_iff]
      exact ⟨rfl, ⟨_, inUtil, .cons ⟨rfl, rfl⟩ .nil⟩, rfl⟩
    rw [furtherModules_eq_ok_iff, isModules, if_pos isDirectory]
    exact ⟨_, inModules, .cons (isUtil ▸ util) .nil⟩
  exact Package.load_eq_ok_iff.mpr ⟨rfl, "demo", _, _,
    packageName_of_location? reader noManifest isPlace, first, further, by decide +kernel⟩

end FileSystem

end ServiceAnnotator
