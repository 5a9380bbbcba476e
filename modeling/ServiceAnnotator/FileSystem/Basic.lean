import ServiceAnnotator.Text.Utf8

/-!
# File systems

A package is read from a file system, of which only the answers to four questions matter: what
stands at a path, what a file contains, what a directory lists, and where a path really leads. Names
and contents are bytes; a path is a text.
-/

namespace ServiceAnnotator

/-- What stands at a path. -/
inductive NodeKind where
  | file
  | directory
  deriving DecidableEq, Repr

/-- The name of a directory's entry. -/
abbrev FileName := List UInt8

/-- The bytes of a name. -/
def FileName.ofText (name : String) : FileName := Text.Utf8.encode name.toList

/-- The answers of a file system. -/
structure FileSystem where
  /-- What stands at a path, if anything does. -/
  kind? : String → Option NodeKind
  /-- The content of a file that can be read. -/
  content? : String → Option (List UInt8)
  /-- The names in a directory that can be listed, in any order. -/
  names? : String → Option (List FileName)
  /-- The names that lead from the root of the file system to what stands at a path. -/
  location? : String → Option (List FileName)

namespace FileSystem

/-- Whether a directory stands at a path. -/
def isDirectory (system : FileSystem) (path : String) : Bool := system.kind? path = some .directory

/-- Whether a file stands at a path. -/
def isFile (system : FileSystem) (path : String) : Bool := system.kind? path = some .file

end FileSystem

/-- The path of an entry of a directory. -/
def entryPath (directory name : String) : String :=
  if directory.isEmpty then name
  else if directory.toList.getLast? = some '/' then directory ++ name
  else directory ++ "/" ++ name

/-- The part of a file's name behind its last dot; a dot at the front of the name starts none. -/
def extension? (name : String) : Option String :=
  let (reversed, before) := name.toList.reverse.span (· ≠ '.')
  match before with
  | [] | [_] => none
  | _ => some (String.ofList reversed.reverse)

end ServiceAnnotator
