import ServiceAnnotator.FileSystem.Basic

/-!
# File systems in memory

A tree of directories and files answers as a file system. Paths are followed part by part: each part
that is gone through has to be a directory, also before `.`, `..` or a slash at the end.
-/

namespace ServiceAnnotator

/-- A file, or a directory with named entries. -/
inductive FileTree where
  | file (content : List UInt8)
  | directory (entries : List (FileName × FileTree))

namespace FileTree

/-- What a tree stands for. -/
def kind : FileTree → NodeKind
  | file _ => .file
  | directory _ => .directory

/-- The content of a file. -/
def content? : FileTree → Option (List UInt8)
  | file content => some content
  | directory _ => none

/-- The names in a directory. -/
def names? : FileTree → Option (List FileName)
  | file _ => none
  | directory entries => some (entries.map Prod.fst)

/-- The entries of a directory; a file has none. -/
def entries : FileTree → List (FileName × FileTree)
  | file _ => []
  | directory entries => entries

/-- The entry of a name. -/
def child? (tree : FileTree) (name : FileName) : Option FileTree :=
  (tree.entries.find? fun entry => entry.1 = name).map Prod.snd

/-- What names lead to. -/
def descend? : FileTree → List FileName → Option FileTree
  | tree, [] => some tree
  | tree, name :: names => (tree.child? name).bind (descend? · names)

/-- What stands at the end of some names, if anything does. -/
def kindAt? (root : FileTree) (place : List FileName) : Option NodeKind :=
  (root.descend? place).map kind

/-- The names that lead to the end of a path which goes on from a place in the tree. -/
def follow? (root : FileTree) (place : List FileName) : List String → Option (List FileName)
  | [] => some place
  | part :: parts =>
    if root.kindAt? place = some .directory then
      if part = "" ∨ part = "." then root.follow? place parts
      else if part = ".." then root.follow? place.dropLast parts
      else
        let next := place ++ [FileName.ofText part]
        if (root.kindAt? next).isSome then root.follow? next parts else none
    else none

/-- The parts of a path, which slashes keep apart. -/
def pathParts (path : String) : List String := (path.toList.splitOn '/').map String.ofList

/-- The names that lead to the end of a path. A path that does not start with a slash goes on from
the working directory. -/
def locate? (root : FileTree) (working : List FileName) (path : String) : Option (List FileName) :=
  if path.isEmpty then none
  else root.follow? (if path.toList.head? = some '/' then [] else working) (pathParts path)

/-- The file system of a tree with a working directory in it. -/
def fileSystem (root : FileTree) (working : List FileName) : FileSystem :=
  let found? (path : String) : Option FileTree := (root.locate? working path).bind root.descend?
  { kind? := fun path => (found? path).map kind
    content? := fun path => (found? path).bind content?
    names? := fun path => (found? path).bind names?
    location? := root.locate? working }

/-- The entry, with another tree in it if it is the one of a name. -/
def replaceEntry (name : FileName) (tree : FileTree) (entry : FileName × FileTree) :
    FileName × FileTree :=
  if entry.1 = name then (name, tree) else entry

/-- The tree with a change at the end of some names; missing directories are made on the way. The
change is told what stands there. -/
def change (at? : Option FileTree → FileTree) : List FileName → Option FileTree → FileTree
  | [], old? => at? old?
  | name :: names, old? =>
    let old := old?.getD (.directory [])
    let new := change at? names (old.child? name)
    if old.entries.any fun entry => entry.1 = name then
      .directory (old.entries.map (replaceEntry name new))
    else .directory (old.entries ++ [(name, new)])

/-- The tree with a content in the file that names lead to. -/
def write (root : FileTree) (names : List FileName) (content : List UInt8) : FileTree :=
  change (fun _ => .file content) names (some root)

/-- The tree with a text in the file that a path leads to; a path that leads nowhere is left out. -/
def writeText (root : FileTree) (working : List FileName) (path : String) (text : List Char) :
    FileTree :=
  match root.locate? working path with
  | none => root
  | some names => root.write names (Text.Utf8.encode text)

/-- The tree with texts in the files that paths lead to, one after the other. -/
def writeAll (root : FileTree) (working : List FileName) (writes : List (String × List Char)) :
    FileTree :=
  writes.foldl (fun root write => root.writeText working write.1 write.2) root

/-- The tree with a directory where names lead to. -/
def makeDirectory (root : FileTree) (names : List FileName) : FileTree :=
  change (fun old? => .directory ((old?.map entries).getD [])) names (some root)

end FileTree

end ServiceAnnotator
