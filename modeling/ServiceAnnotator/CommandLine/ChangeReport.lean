import ServiceAnnotator.CommandLine.Arguments
import ServiceAnnotator.Package.Compilation
import ServiceAnnotator.Text.JsonString

/-!
# Reports of changes

After a package was annotated, the documents that changed are listed, either one path on a line or
as JSON.
-/

namespace ServiceAnnotator.CommandLine

/-- A document that changed. -/
structure ChangedDocument where
  path : String
  owner : String
  set : SourceSet
  deriving DecidableEq, Repr

/-- The documents of a package that changed, or would have. -/
structure ChangeReport where
  package : String
  dryRun : Bool
  changed : List ChangedDocument
  deriving DecidableEq, Repr

namespace ChangeReport

/-- The lines of a list between two brackets. -/
def bracketed (items : List (List String)) : List String :=
  let last := items.length - 1
  let marked := items.zipIdx.map fun (lines, index) =>
    if index = last then lines
    else lines.dropLast ++ (lines.getLast?.map (· ++ ",")).toList
  marked.flatten.map ("  " ++ ·)

/-- The lines of a document as a JSON object. -/
def documentLines (document : ChangedDocument) : List String :=
  ["\x7b"] ++
    bracketed [
      ["\"path\": " ++ Text.jsonString document.path],
      ["\"module\": " ++ Text.jsonString document.owner],
      ["\"source_set\": " ++ Text.jsonString document.set.name]] ++
    ["\x7d"]

/-- The lines of the list of documents as a JSON array. -/
def changedLines (changed : List ChangedDocument) : List String :=
  if changed.isEmpty then ["\"changed\": []"]
  else ["\"changed\": ["] ++ bracketed (changed.map documentLines) ++ ["]"]

/-- The lines of a report as JSON. -/
def jsonLines (report : ChangeReport) : List String :=
  ["\x7b"] ++
    bracketed [
      ["\"package\": " ++ Text.jsonString report.package],
      ["\"dry_run\": " ++ if report.dryRun then "true" else "false"],
      changedLines report.changed] ++
    ["\x7d"]

/-- The lines of a report. -/
def lines (report : ChangeReport) : Format → List String
  | .text => report.changed.map ChangedDocument.path
  | .json => report.jsonLines

/-- A report as a text. -/
def shown (report : ChangeReport) (format : Format) : String :=
  String.join ((report.lines format).map (· ++ "\n"))

end ChangeReport

end ServiceAnnotator.CommandLine
