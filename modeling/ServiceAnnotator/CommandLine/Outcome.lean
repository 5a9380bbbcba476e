import ServiceAnnotator.CommandLine.ChangeReport
import ServiceAnnotator.Render.Report
import ServiceAnnotator.Toml.Manifest

/-!
# What a command does

A command reads a package and gives what is printed, which documents are written, and whether it
succeeded. It succeeds unless the package has errors or cannot be read.
-/

namespace ServiceAnnotator.CommandLine

/-- What the program does in the end. -/
structure Outcome where
  exitCode : Nat
  output : String
  errors : String
  /-- Paths and the texts that are written to them. -/
  writes : List (String × List Char)
  deriving DecidableEq, Repr

namespace Outcome

/-- The name and the version of the program. -/
def versionText : String := "ballast 0.1.0\n"

/-- How the program is used. -/
def helpText : String :=
  "Adds `@http:ServiceConfig \x7bserviceType: T\x7d` to typed services\n\n" ++
  "Usage: ballast <COMMAND>\n\n" ++
  "Commands:\n" ++
  "  check <PATH>                                     Print the diagnostics of a package\n" ++
  "  modify <PATH> [--dry-run] [--format text|json]   Annotate typed services\n" ++
  "  help                                             Print this message\n\n" ++
  "Options:\n" ++
  "  -h, --help     Print help\n" ++
  "  -V, --version  Print version\n"

/-- Nothing but a text is printed. -/
def message (text : String) : Outcome := ⟨0, text, "", []⟩

/-- The arguments make no sense. -/
def misuse : Outcome := ⟨2, "", "error: invalid arguments\n\n" ++ helpText, []⟩

/-- The package could not be read. -/
def failure (error : LoadError) : Outcome := ⟨1, "", "Error: " ++ error.message ++ "\n", []⟩

/-- The exit code for a package with errors or without. -/
def codeOf (package : Package) : Nat := if package.hasErrors then 1 else 0

/-- The diagnostics of a package as they are printed. -/
def shownDiagnostics (package : Package) : String :=
  String.join (package.diagnostics.map fun entry =>
    match package.documents[entry.document]? with
    | none => ""
    | some document =>
      (Render.styled? entry.diagnostic document.path document.text).getD "" ++ "\n")

/-- The outcome of checking a package. -/
def ofCheck (package : Package) : Outcome := ⟨codeOf package, "", shownDiagnostics package, []⟩

/-- The edits of a package that change their documents. -/
def changes (package : Package) : List Edit := package.edits.filter fun edit => !package.isNoop edit

/-- The report of some edits of a package. -/
def reportOf (package : Package) (dryRun : Bool) (edits : List Edit) : ChangeReport :=
  { package := package.name
    dryRun
    changed := edits.map fun edit =>
      { path := edit.path
        owner := (package.modules[edit.owner]?.map PackageModule.name).getD ""
        set := edit.set } }

/-- The outcome of annotating a package. Diagnostics are printed only when there are errors, and
then nothing is changed. -/
def ofModify (package : Package) (dryRun : Bool) (format : Format) : Outcome :=
  let edits := changes package
  { exitCode := codeOf package
    output := (reportOf package dryRun edits).shown format
    errors := if package.hasErrors then shownDiagnostics package else ""
    writes := if dryRun then [] else edits.map fun edit => (edit.path, edit.text) }

/-- The outcome of a command on the package in a directory. -/
def onPackage (system : FileSystem) (path : String) (command : Package → Outcome) : Outcome :=
  match Package.load Manifest.ofText? system path with
  | .ok package => command package
  | .error error => failure error

/-- The outcome of a request. -/
def ofRequest (system : FileSystem) : Request → Outcome
  | .check path => onPackage system path ofCheck
  | .modify path dryRun format => onPackage system path (ofModify · dryRun format)
  | .help => message helpText
  | .version => message versionText
  | .misuse => misuse

/-- The outcome of the program's arguments. -/
def ofArguments (system : FileSystem) (arguments : List String) : Outcome :=
  ofRequest system (.ofArguments arguments)

end Outcome

end ServiceAnnotator.CommandLine
