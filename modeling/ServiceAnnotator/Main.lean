import ServiceAnnotator.CommandLine.Outcome

/-!
# The program

The part of the disk that a package can lie in is read first; what the command then does is decided
without looking at the disk again, apart from the documents that are written in the end.
-/

namespace ServiceAnnotator.Disk

/-- What was found at a path. -/
structure Found where
  path : String
  kind : NodeKind
  content? : Option (List UInt8)
  names? : Option (List FileName)

/-- The file system that consists of what was found, in which the root of a package really lies at a
place. -/
def fileSystem (found : List Found) (place? : Option (List FileName)) : FileSystem :=
  let find? (path : String) : Option Found := found.find? fun entry => entry.path = path
  { kind? := fun path => (find? path).map Found.kind
    content? := fun path => (find? path).bind Found.content?
    names? := fun path => (find? path).bind Found.names?
    location? := fun _ => place? }

/-- The result of an action, if it does not fail. -/
def attempt {α : Type} (action : IO α) : IO (Option α) := do
  try
    return some (← action)
  catch _ =>
    return none

/-- What stands at a path. Everything but directories and regular files is passed over. -/
def kindAt? (path : String) : IO (Option NodeKind) := do
  let here ← IO.currentDir
  match ← attempt (here / path).metadata with
  | some found =>
    if found.type == .dir then return some .directory
    else if found.type == .file then return some .file
    else return none
  | none => return none

/-- A file with its content. Only the manifest and source files have to be read. -/
def readFile (path name : String) : IO Found := do
  if name = "Ballerina.toml" ∨ extension? name = some "bal" then
    let content? ← attempt (IO.FS.readBinFile path)
    return ⟨path, .file, content?.map (·.toList), none⟩
  else return ⟨path, .file, none, none⟩

/-- A directory and the files in it. Directories in it are read by another action, or passed
over. -/
def readDirectory (inner : String → String → IO (List Found)) (path : String) :
    IO (List Found) := do
  let here ← IO.currentDir
  match ← attempt (here / path).readDir with
  | none => return [⟨path, .directory, none, none⟩]
  | some entries =>
    let names := entries.toList.map (·.fileName)
    let mut found : List Found :=
      [⟨path, .directory, none, some (names.map fun name => Text.Utf8.encode name.toList)⟩]
    for name in names do
      let entry := entryPath path name
      match ← kindAt? entry with
      | some .file => found := (← readFile entry name) :: found
      | some .directory => found := found ++ (← inner entry name)
      | none => pure ()
    return found

/-- A directory and the files in it. -/
def readFiles (path : String) : IO (List Found) :=
  readDirectory (fun entry _ => return [⟨entry, .directory, none, none⟩]) path

/-- The directory of a module. -/
def readModule (path : String) : IO (List Found) :=
  readDirectory (fun entry name =>
    if name = "tests" then readFiles entry else return [⟨entry, .directory, none, none⟩]) path

/-- The directory of a package. -/
def readPackage (path : String) : IO (List Found) :=
  readDirectory (fun entry name =>
    if name = "tests" then readFiles entry
    else if name = "modules" then readDirectory (fun inner _ => readModule inner) entry
    else return [⟨entry, .directory, none, none⟩]) path

/-- The part of the disk in which a package lies. -/
def readRoot (path : String) : IO FileSystem := do
  match ← kindAt? path with
  | some .directory =>
    let place? ← attempt (IO.FS.realPath path)
    let names? := place?.map fun place =>
      place.components.filterMap fun name =>
        if name.isEmpty then none else some (Text.Utf8.encode name.toList)
    return fileSystem (← readPackage path) names?
  | some .file => return fileSystem [⟨path, .file, none, none⟩] none
  | none => return fileSystem [] none

/-- The file system that a request needs. -/
def readFor : CommandLine.Request → IO FileSystem
  | .check path | .modify path _ _ => if path.isEmpty then return fileSystem [] none else readRoot path
  | _ => return fileSystem [] none

/-- Writes texts to files and gives the first path at which that fails. -/
def writeAll : List (String × List Char) → IO (Option String)
  | [] => return none
  | (path, text) :: writes => do
    match ← attempt (IO.FS.writeFile path (String.ofList text)) with
    | some _ => writeAll writes
    | none => return some path

end ServiceAnnotator.Disk

open ServiceAnnotator in
/-- Runs a command and gives the exit code. -/
def main (arguments : List String) : IO UInt32 := do
  let request := CommandLine.Request.ofArguments arguments
  let outcome := CommandLine.Outcome.ofRequest (← Disk.readFor request) request
  IO.eprint outcome.errors
  match ← Disk.writeAll outcome.writes with
  | some path =>
    IO.eprint ("Error: failed to write `" ++ path ++ "`\n")
    return 1
  | none =>
    IO.print outcome.output
    return UInt32.ofNat outcome.exitCode
