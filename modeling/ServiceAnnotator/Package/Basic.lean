import ServiceAnnotator.Diagnostic

/-!
# Packages

A package holds documents in modules. Modules and documents are numbered in the order in which they
are added, documents through the whole package. A module lists its main documents and its test
documents.
-/

namespace ServiceAnnotator

/-- Which half of a module a document belongs to. Tests are checked but never changed. -/
inductive SourceSet where
  | main
  | test
  deriving DecidableEq, Repr

namespace SourceSet

/-- The name by which reports show a half of a module. -/
def name : SourceSet → String
  | main => "main"
  | test => "test"

end SourceSet

/-- Number of a module in its package. -/
abbrev ModuleId := Nat

/-- Number of a document in its package. -/
abbrev DocumentId := Nat

/-- A document and the module that it is added to. -/
structure NewDocument where
  owner : ModuleId
  path : String
  text : List Char
  deriving DecidableEq, Repr

/-- A document of a package with the number that it got. -/
structure PackageDocument extends NewDocument where
  id : DocumentId
  deriving DecidableEq, Repr

/-- A module of a package with the number that it got, and the documents it lists. -/
structure PackageModule where
  id : ModuleId
  name : String
  main : List DocumentId
  test : List DocumentId
  deriving DecidableEq, Repr

namespace PackageModule

/-- The half of the module to which a document belongs: the main half when it is listed there, else
the tests. -/
def sourceSetOf (owner : PackageModule) (document : DocumentId) : SourceSet :=
  if owner.main.contains document then .main else .test

/-- The module with one more document at the end of a list. -/
def list (owner : PackageModule) (document : DocumentId) : SourceSet → PackageModule
  | .main => { owner with main := owner.main ++ [document] }
  | .test => { owner with test := owner.test ++ [document] }

end PackageModule

/-- A diagnostic and the document it is about. -/
structure DocumentDiagnostic where
  document : DocumentId
  diagnostic : Diagnostic
  deriving DecidableEq, Repr

/-- A package: its modules and documents, and the problems met while reading it. -/
structure Package where
  name : String
  root : String
  modules : List PackageModule
  documents : List PackageDocument
  loadDiagnostics : List DocumentDiagnostic
  deriving DecidableEq, Repr

namespace Package

/-- A package without modules. -/
def empty (name root : String) : Package := ⟨name, root, [], [], []⟩

/-- The package with one more module, and the number of that module. -/
def addModule (package : Package) (name : String) : Package × ModuleId :=
  let id := package.modules.length
  ({ package with modules := package.modules ++ [⟨id, name, [], []⟩] }, id)

/-- The package with one more document, and the number of that document. A module that the package
does not have takes no document. -/
def addDocument? (package : Package) (owner : ModuleId) (path : String) (text : List Char)
    (set : SourceSet) : Option (Package × DocumentId) :=
  package.modules[owner]?.map fun found =>
    let id := package.documents.length
    ({ package with
        documents := package.documents ++ [⟨⟨owner, path, text⟩, id⟩]
        modules := package.modules.set owner (found.list id set) },
      id)

/-- The package with a problem met while reading a document. -/
def addLoadDiagnostic (package : Package) (document : DocumentId) (diagnostic : Diagnostic) :
    Package :=
  { package with loadDiagnostics := package.loadDiagnostics ++ [⟨document, diagnostic⟩] }

/-- The package with another text of a document, if it has the document. -/
def setText? (package : Package) (document : DocumentId) (text : List Char) : Option Package :=
  package.documents[document]?.map fun found =>
    { package with documents := package.documents.set document { found with text } }

/-- The package with another text of a document; a document it does not have is left out. -/
def setText (package : Package) (document : DocumentId) (text : List Char) : Package :=
  (package.setText? document text).getD package

end Package

end ServiceAnnotator
