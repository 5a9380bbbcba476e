import ServiceAnnotator.FileSystem.Basic
import ServiceAnnotator.Package.Basic

/-!
# Finding a package

A package is read from a directory. Its first module has the source files in it as main documents
and those in its `tests` directory as tests. Every directory in `modules` is one more module of the
same layout. Everything is taken in the order of the names. The package may have a manifest; in
which language that is written is left to a reader of manifests.
-/

namespace ServiceAnnotator

/-- Why a package could not be read. -/
inductive LoadError where
  | notADirectory (path : String)
  | unreadable (path : String)
  /-- A directory has an entry whose name is not valid UTF-8. -/
  | nameNotUtf8 (path : List UInt8)
  | invalidManifest (path : String)
  deriving DecidableEq, Repr

namespace LoadError

/-- The error in words. -/
def message : LoadError → String
  | notADirectory path => "`" ++ path ++ "` is not a directory"
  | unreadable path => "failed to read `" ++ path ++ "`"
  | nameNotUtf8 path => "non UTF-8 path `" ++ String.ofList (Text.Utf8.decodeLossy path) ++ "`"
  | invalidManifest path => "invalid manifest `" ++ path ++ "`"

end LoadError

/-- What a manifest says. -/
structure Manifest where
  /-- The name of the package, if the manifest gives one. -/
  name? : Option (List Char)
  deriving DecidableEq, Repr

/-- A reader of manifests gives what the text of a manifest says, unless it says nothing. -/
abbrev ManifestReader := List Char → Option Manifest

/-- A file and what it contains. -/
structure SourceFile where
  path : String
  content : List UInt8
  deriving DecidableEq, Repr

/-- The source files of a module. -/
structure ModuleSources where
  name : String
  main : List SourceFile
  test : List SourceFile
  deriving DecidableEq, Repr

namespace FileSystem

/-- The name of a directory's entry as a text. -/
def nameText (directory : String) (name : FileName) : Except LoadError String :=
  match Text.Utf8.decode? name with
  | some cs => .ok (String.ofList cs)
  | none => .error (.nameNotUtf8 (FileName.ofText (entryPath directory "") ++ name))

/-- The names in a directory in the order of their bytes. All of them have to be valid UTF-8. -/
def sortedNames (system : FileSystem) (directory : String) : Except LoadError (List String) :=
  match system.names? directory with
  | none => .error (.unreadable directory)
  | some entries => do
    let names ← entries.mapM (nameText directory)
    pure (names.mergeSort fun a b => decide (FileName.ofText a ≤ FileName.ofText b))

/-- A file with its content. -/
def sourceFile (system : FileSystem) (path : String) : Except LoadError SourceFile :=
  match system.content? path with
  | some content => .ok ⟨path, content⟩
  | none => .error (.unreadable path)

/-- Whether an entry of a directory is a source file: a file whose extension is `bal`. -/
def isSource (system : FileSystem) (directory name : String) : Bool :=
  extension? name = some "bal" && system.isFile (entryPath directory name)

/-- The source files in a directory. -/
def sourcesIn (system : FileSystem) (directory : String) : Except LoadError (List SourceFile) := do
  let names ← system.sortedNames directory
  (names.filter (system.isSource directory)).mapM fun name =>
    system.sourceFile (entryPath directory name)

/-- The source files in the `tests` directory of a directory. -/
def testsIn (system : FileSystem) (directory : String) : Except LoadError (List SourceFile) :=
  let tests := entryPath directory "tests"
  if system.isDirectory tests then system.sourcesIn tests else .ok []

/-- The module of a name in a directory. -/
def moduleIn (system : FileSystem) (name directory : String) : Except LoadError ModuleSources := do
  let main ← system.sourcesIn directory
  let test ← system.testsIn directory
  pure ⟨name, main, test⟩

/-- The further modules of a package: the directories in its `modules` directory. -/
def furtherModules (system : FileSystem) (name root : String) :
    Except LoadError (List ModuleSources) := do
  let modules := entryPath root "modules"
  if system.isDirectory modules then
    let names ← system.sortedNames modules
    (names.filter fun entry => system.isDirectory (entryPath modules entry)).mapM fun entry =>
      system.moduleIn (name ++ "." ++ entry) (entryPath modules entry)
  else pure []

/-- The name that the manifest in a directory gives, if there is a manifest. -/
def manifestName? (system : FileSystem) (reader : ManifestReader) (root : String) :
    Except LoadError (Option String) :=
  let path := entryPath root "Ballerina.toml"
  if system.isFile path then
    match (system.content? path).bind Text.Utf8.decode? with
    | none => .error (.unreadable path)
    | some text =>
      match reader text with
      | none => .error (.invalidManifest path)
      | some manifest => .ok (manifest.name?.map String.ofList)
  else .ok none

/-- The name of the directory that a path really leads to. The root of the file system has none and
counts as `main`. -/
def directoryName (system : FileSystem) (root : String) : Except LoadError String :=
  match (system.location? root).bind fun names => names.mapM Text.Utf8.decode? with
  | none => .error (.unreadable root)
  | some names => .ok ((names.getLast?.map String.ofList).getD "main")

/-- The name of the package in a directory: the one in its manifest, else that of the directory. -/
def packageName (system : FileSystem) (reader : ManifestReader) (root : String) :
    Except LoadError String := do
  match ← system.manifestName? reader root with
  | some name => pure name
  | none => system.directoryName root

end FileSystem

namespace Package

/-- The package with the document of a file. A file that is not valid UTF-8 is an error at the end
of its valid part. -/
def addSource (owner : ModuleId) (set : SourceSet) (package : Package) (file : SourceFile) :
    Package :=
  match package.addDocument? owner file.path (Text.Utf8.decodeLossy file.content) set with
  | none => package
  | some (changed, document) =>
    if (Text.Utf8.decode? file.content).isSome then changed
    else
      let valid := Text.byteLength (Text.Utf8.validPrefix file.content)
      changed.addLoadDiagnostic document ⟨.error, "file is not valid UTF-8", .empty valid⟩

/-- The package with one more module and its documents, main documents first. -/
def addSources (package : Package) (sources : ModuleSources) : Package :=
  let (changed, owner) := package.addModule sources.name
  sources.test.foldl (addSource owner .test) (sources.main.foldl (addSource owner .main) changed)

/-- The package of a name with the documents of modules. -/
def ofSources (name root : String) (modules : List ModuleSources) : Package :=
  modules.foldl addSources (empty name root)

/-- The package in a directory. -/
def load (reader : ManifestReader) (system : FileSystem) (root : String) :
    Except LoadError Package :=
  if system.isDirectory root then do
    let name ← system.packageName reader root
    let first ← system.moduleIn name root
    let further ← system.furtherModules name root
    pure (ofSources name root (first :: further))
  else .error (.notADirectory root)

end Package

end ServiceAnnotator
