import ServiceAnnotator.Attachment.Service
import ServiceAnnotator.Package.Basic
import ServiceAnnotator.SourceCheck

/-!
# Checking and changing a package

A package is checked document by document. Its main documents are changed only when no document,
main or test, has an error.
-/

namespace ServiceAnnotator

/-- The text that a main document gets. -/
structure Edit where
  document : DocumentId
  owner : ModuleId
  set : SourceSet
  path : String
  text : List Char
  deriving DecidableEq, Repr

namespace Package

/-- All diagnostics of a package: first the problems met while reading it, then those of each
document in order. -/
def diagnostics (package : Package) : List DocumentDiagnostic :=
  package.loadDiagnostics ++ package.documents.flatMap fun document =>
    (SourceTree.check document.text).map (DocumentDiagnostic.mk document.id)

/-- Whether any diagnostic of a package is an error. -/
def hasErrors (package : Package) : Bool :=
  !Diagnostic.allowChanges (package.diagnostics.map DocumentDiagnostic.diagnostic)

/-- The text of a document after the pass over its services. -/
def annotatedText (text : List Char) : List Char :=
  (Attachment.annotateTree (SourceTree.parse text).tree).text

/-- The edits of a module's main documents, in the order in which the module lists them. -/
def editsOf (package : Package) (found : PackageModule) : List Edit :=
  found.main.filterMap fun id =>
    package.documents[id]?.map fun document =>
      { document := id
        owner := found.id
        set := found.sourceSetOf id
        path := document.path
        text := annotatedText document.text }

/-- One edit for each main document, module by module; none at all when the package has errors. -/
def edits (package : Package) : List Edit :=
  if package.hasErrors then [] else package.modules.flatMap package.editsOf

/-- Whether an edit leaves its document as it is. -/
def isNoop (package : Package) (edit : Edit) : Bool :=
  (package.documents[edit.document]?.map (·.text)) == some edit.text

/-- The package with the text of each edit in its document. -/
def apply (package : Package) (edits : List Edit) : Package :=
  edits.foldl (fun package edit => package.setText edit.document edit.text) package

end Package

/-- What a pass asks of the program that runs it: another text for a main document or for a test. -/
inductive HostCall where
  | modifySource (text : List Char) (document : DocumentId) (owner : ModuleId)
  | modifyTest (text : List Char) (document : DocumentId) (owner : ModuleId)
  deriving DecidableEq, Repr

namespace HostCall

/-- The call that hands over an edit. -/
def ofEdit (edit : Edit) : HostCall :=
  match edit.set with
  | .main => .modifySource edit.text edit.document edit.owner
  | .test => .modifyTest edit.text edit.document edit.owner

end HostCall

namespace Package

/-- The calls that the pass over a package makes. -/
def hostCalls (package : Package) : List HostCall := package.edits.map HostCall.ofEdit

end Package

end ServiceAnnotator
