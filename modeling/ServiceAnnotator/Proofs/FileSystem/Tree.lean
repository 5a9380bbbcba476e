import ServiceAnnotator.FileSystem.Tree
import ServiceAnnotator.Proofs.FileSystem.Path

/-!
# Names and paths in a tree

A tree in which every directory has proper names answers as a file system that guarantees them. A
path is followed name by name, so that an entry lies where its directory lies, with one name more.
-/

namespace ServiceAnnotator

namespace FileTree

/-- A name that an entry can have: it is not empty, has no slash, and means neither the directory
itself nor the one above it. -/
structure IsEntryName (name : FileName) : Prop where
  notEmpty : name ≠ []
  noSlash : 0x2f ∉ name
  notHere : name ≠ .ofText "."
  notAbove : name ≠ .ofText ".."

theorem IsEntryName.isPlainName {name : String} (isName : IsEntryName (.ofText name)) :
    IsPlainName name :=
  isPlainName_of_ofText isName.notEmpty isName.noSlash

/-- Trees whose directories hold no two entries of one name, and no entry of an improper name. -/
inductive WellNamed : FileTree → Prop
  | file (content : List UInt8) : WellNamed (.file content)
  | directory {entries : List (FileName × FileTree)} :
      (entries.map Prod.fst).Nodup → (∀ entry ∈ entries, IsEntryName entry.1) →
      (∀ entry ∈ entries, WellNamed entry.2) → WellNamed (.directory entries)

theorem WellNamed.child? {tree child : FileTree} {name : FileName} (named : tree.WellNamed)
    (found : tree.child? name = some child) : child.WellNamed := by
  obtain ⟨entry, isEntry, rfl⟩ := Option.map_eq_some_iff.mp found
  have inside := List.mem_of_find?_eq_some isEntry
  cases named with
  | file content => cases inside
  | directory _ _ inner => exact inner entry inside

theorem WellNamed.descend? {tree below : FileTree} {names : List FileName} (named : tree.WellNamed)
    (found : tree.descend? names = some below) : below.WellNamed := by
  induction names generalizing tree with
  | nil =>
    obtain rfl := Option.some.inj found
    exact named
  | cons name names ih =>
    obtain ⟨child, isChild, further⟩ := Option.bind_eq_some_iff.mp found
    exact ih (named.child? isChild) further

variable {tree : FileTree} {working : List FileName}

/-- What a directory of a well-named tree lists has proper names, each once. -/
theorem WellNamed.listed (named : tree.WellNamed) {path : String} {names : List FileName}
    (isListed : (tree.fileSystem working).names? path = some names) :
    names.Nodup ∧ ∀ name ∈ names, IsEntryName name := by
  obtain ⟨found, isFound, isNames⟩ := Option.bind_eq_some_iff.mp isListed
  obtain ⟨place, _, leadsThere⟩ := Option.bind_eq_some_iff.mp isFound
  cases named.descend? leadsThere with
  | file content => cases isNames
  | directory distinct proper _ =>
    obtain rfl := Option.some.inj isNames
    exact ⟨distinct, List.forall_mem_map.mpr proper⟩

theorem WellNamed.proper (named : tree.WellNamed) : (tree.fileSystem working).Proper where
  once _ _ isListed := (named.listed isListed).1
  plain _ _ isListed name inside :=
    have isName := (named.listed isListed).2 name inside
    ⟨isName.notEmpty, isName.noSlash⟩

/-! ## Following a path -/

variable {place : List FileName} {directory name : String}

theorem follow?_cons (part : String) (parts : List String) :
    tree.follow? place (part :: parts) =
      (tree.follow? place [part]).bind (tree.follow? · parts) := by
  simp only [follow?]
  split
  · split
    · rfl
    · split
      · rfl
      · split <;> rfl
  · rfl

theorem follow?_append (parts more : List String) :
    tree.follow? place (parts ++ more) =
      (tree.follow? place parts).bind (tree.follow? · more) := by
  induction parts generalizing place with
  | nil => rfl
  | cons part parts ih =>
    rw [List.cons_append, follow?_cons, follow?_cons part parts, Option.bind_assoc]
    simp only [ih]

/-- Where a path leads to a directory, a slash behind it makes no difference to what follows. -/
theorem follow?_slash (part : String) :
    (tree.follow? place [""]).bind (tree.follow? · [part]) = tree.follow? place [part] := by
  rw [← follow?_cons]
  by_cases isDirectory : tree.kindAt? place = some .directory
  · rw [follow?, if_pos isDirectory, if_pos (.inl rfl)]
  · rw [follow?, follow?, if_neg isDirectory, if_neg isDirectory]

/-- The parts of a path that ends with a name behind a slash. -/
theorem pathParts_eq {path : String} {front : List Char} (noSlash : '/' ∉ name.toList)
    (isPath : path.toList = front ++ '/' :: name.toList) :
    pathParts path = (front.splitOn '/').map String.ofList ++ [name] := by
  have split : (front ++ '/' :: name.toList).splitOn '/' =
      front.splitOn '/' ++ name.toList.splitOn '/' :=
    List.splitOnP_append_cons front name.toList (beq_self_eq_true '/')
  rw [pathParts, isPath, split, List.splitOn_eq_singleton noSlash, List.map_append,
    List.map_singleton, String.ofList_toList]

/-- The name of an entry stands behind a slash, which its directory's path may end with already. -/
theorem exists_front_entryPath (filled : directory.isEmpty = false) (name : String) :
    ∃ front, (entryPath directory name).toList = front ++ '/' :: name.toList ∧
      (directory.toList = front ∨ directory.toList = front ++ ['/']) := by
  rw [toList_entryPath, pathFront, if_neg (Bool.eq_false_iff.mp filled)]
  split
  · rename_i slash
    obtain ⟨front, isFront⟩ := List.getLast?_eq_some_iff.mp slash
    exact ⟨front, by rw [isFront, List.append_assoc]; rfl, .inr isFront⟩
  · exact ⟨directory.toList, by rw [List.append_assoc]; rfl, .inl rfl⟩

/-- An entry is found by its name where its directory lies. -/
theorem locate?_entryPath (filled : directory.isEmpty = false) (noSlash : '/' ∉ name.toList) :
    tree.locate? working (entryPath directory name) =
      (tree.locate? working directory).bind (tree.follow? · [name]) := by
  obtain ⟨front, isPath, isDirectory⟩ := exists_front_entryPath filled name
  have filledEntry : ¬(entryPath directory name).isEmpty := by
    intro isEmpty
    rw [String.isEmpty_iff.mp isEmpty] at isPath
    simp at isPath
  rw [locate?, locate?, if_neg filledEntry, if_neg (Bool.eq_false_iff.mp filled),
    pathParts_eq noSlash isPath, follow?_append]
  rcases isDirectory with rfl | isDirectory
  · have some : directory.toList ≠ [] := by
      rw [ne_eq, String.toList_eq_nil_iff, ← String.isEmpty_iff, filled]
      exact Bool.false_ne_true
    rw [isPath, List.head?_append, Option.or_of_isSome (List.isSome_head?.mpr some)]
    rfl
  · have noSlashHere : '/' ∉ "".toList := by decide
    have sameHead : (entryPath directory name).toList.head? = directory.toList.head? := by
      rw [isPath, isDirectory]
      cases front <;> rfl
    rw [sameHead, pathParts_eq noSlashHere isDirectory, follow?_append, Option.bind_assoc]
    simp only [follow?_slash]

/-- What lies below a directory is found by the names that lead there. -/
theorem locate?_foldl_entryPath {names : List String} (plain : ∀ name ∈ names, IsPlainName name)
    (filled : directory.isEmpty = false) :
    tree.locate? working (names.foldl entryPath directory) =
      (tree.locate? working directory).bind (tree.follow? · names) := by
  induction names generalizing directory with
  | nil => exact (Option.bind_fun_some _).symm
  | cons name names ih =>
    obtain ⟨notEmpty, noSlash⟩ := plain name List.mem_cons_self
    rw [List.foldl_cons, ih (fun name inside => plain name (List.mem_cons_of_mem _ inside))
      (isEmpty_entryPath notEmpty directory), locate?_entryPath filled noSlash, Option.bind_assoc]
    simp only [← follow?_cons]

theorem place_of_follow?_singleton (isName : IsEntryName (.ofText name)) {found : List FileName}
    (leads : tree.follow? place [name] = some found) : found = place ++ [.ofText name] := by
  have notEmpty : name ≠ "" := by
    rintro rfl
    exact isName.notEmpty rfl
  have notHere : name ≠ "." := by
    rintro rfl
    exact isName.notHere rfl
  have notAbove : name ≠ ".." := by
    rintro rfl
    exact isName.notAbove rfl
  simp only [follow?, notEmpty, notHere, notAbove, or_self, if_false] at leads
  split at leads
  · split at leads
    · exact (Option.some.inj leads).symm
    · cases leads
  · cases leads

/-- Names of entries lead on to one place at most. -/
theorem place_of_follow? {names : List String} (proper : ∀ name ∈ names, IsEntryName (.ofText name))
    {found : List FileName} (leads : tree.follow? place names = some found) :
    found = place ++ names.map FileName.ofText := by
  induction names generalizing place with
  | nil => rw [List.map_nil, List.append_nil, Option.some.inj leads]
  | cons name names ih =>
    rw [follow?_cons] at leads
    obtain ⟨next, leadsNext, further⟩ := Option.bind_eq_some_iff.mp leads
    rw [ih (fun name inside => proper name (List.mem_cons_of_mem _ inside)) further,
      place_of_follow?_singleton (proper name List.mem_cons_self) leadsNext, List.append_assoc]
    rfl

/-- What lies below a directory lies where the names on the way say. -/
theorem place_of_locate? {names : List String} (proper : ∀ name ∈ names, IsEntryName (.ofText name))
    (filled : directory.isEmpty = false) {found : List FileName}
    (isFound : tree.locate? working (names.foldl entryPath directory) = some found) :
    ∃ place, tree.locate? working directory = some place ∧
      found = place ++ names.map FileName.ofText := by
  have plain : ∀ name ∈ names, IsPlainName name := fun name inside => (proper name inside).isPlainName
  rw [locate?_foldl_entryPath plain filled] at isFound
  obtain ⟨place, isPlace, leads⟩ := Option.bind_eq_some_iff.mp isFound
  exact ⟨place, isPlace, place_of_follow? proper leads⟩

/-- So different names lead to different places. -/
theorem names_eq_of_locate? {names others : List String}
    (proper : ∀ name ∈ names, IsEntryName (.ofText name))
    (properOthers : ∀ name ∈ others, IsEntryName (.ofText name))
    (filled : directory.isEmpty = false) {found : List FileName}
    (isFound : tree.locate? working (names.foldl entryPath directory) = some found)
    (isFoundToo : tree.locate? working (others.foldl entryPath directory) = some found) :
    names = others := by
  obtain ⟨place, isPlace, rfl⟩ := place_of_locate? proper filled isFound
  obtain ⟨samePlace, isSamePlace, same⟩ := place_of_locate? properOthers filled isFoundToo
  obtain rfl := Option.some.inj (isPlace.symm.trans isSamePlace)
  exact List.map_injective_iff.mpr (fun _ _ => FileName.ofText_inj) (List.append_cancel_left same)

/-- No file and no directory stands at an empty path. -/
theorem isEmpty_of_kind? {path : String} {kind : NodeKind}
    (stands : (tree.fileSystem working).kind? path = some kind) : path.isEmpty = false := by
  rw [Bool.eq_false_iff]
  intro isEmpty
  simp only [fileSystem, locate?, if_pos isEmpty, Option.bind_none, Option.map_none, reduceCtorEq]
    at stands

theorem exists_place_of_content? {path : String} {content : List UInt8}
    (isContent : (tree.fileSystem working).content? path = some content) :
    ∃ place, tree.locate? working path = some place := by
  obtain ⟨_, isFound, _⟩ := Option.bind_eq_some_iff.mp isContent
  obtain ⟨place, isPlace, _⟩ := Option.bind_eq_some_iff.mp isFound
  exact ⟨place, isPlace⟩

end FileTree

end ServiceAnnotator
