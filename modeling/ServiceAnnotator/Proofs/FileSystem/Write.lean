import ServiceAnnotator.Proofs.FileSystem.Tree

/-!
# Files that are overwritten

When a file in a tree gets another content, nothing else changes: every path leads where it led,
every directory lists what it listed, and all other files keep their contents.
-/

namespace ServiceAnnotator

/-- The file system with other contents in its files. -/
def FileSystem.withContents (system : FileSystem) (contents : String → Option (List UInt8)) :
    FileSystem :=
  { system with content? := contents }

/-- A file system in which files got other texts, and in which nothing else has changed. -/
structure FileSystem.Overwritten (system other : FileSystem) (writes : List (String × List Char)) :
    Prop where
  kind : other.kind? = system.kind?
  names : other.names? = system.names?
  location : other.location? = system.location?
  written : ∀ write ∈ writes, other.content? write.1 = some (Text.Utf8.encode write.2)
  kept : ∀ path, (∀ write ∈ writes, system.location? write.1 ≠ system.location? path) →
    other.content? path = system.content? path

namespace FileSystem.Overwritten

variable {system between after : FileSystem} {write : String × List Char}
variable {writes : List (String × List Char)}

theorem refl (system : FileSystem) : system.Overwritten system [] :=
  ⟨rfl, rfl, rfl, nofun, fun _ _ => rfl⟩

theorem eq_withContents (overwritten : system.Overwritten after writes) :
    after = system.withContents after.content? := by
  obtain ⟨kind?, content?, names?, location?⟩ := after
  obtain ⟨rfl, rfl, rfl, _, _⟩ := overwritten
  rfl

/-- Texts that are written later leave alone what was written in another place before. -/
theorem cons (first : system.Overwritten between [write]) (rest : between.Overwritten after writes)
    (apart : ∀ next ∈ writes, system.location? write.1 ≠ system.location? next.1) :
    system.Overwritten after (write :: writes) := by
  refine ⟨rest.kind.trans first.kind, rest.names.trans first.names,
    rest.location.trans first.location, ?_, fun path away => ?_⟩
  · refine List.forall_mem_cons.mpr ⟨?_, rest.written⟩
    rw [rest.kept, first.written _ (List.mem_singleton_self _)]
    intro next inside
    rw [first.location]
    exact (apart next inside).symm
  · obtain ⟨awayFirst, awayRest⟩ := List.forall_mem_cons.mp away
    rw [rest.kept, first.kept path (List.forall_mem_singleton.mpr awayFirst)]
    rwa [first.location]

end FileSystem.Overwritten

namespace FileTree

variable {tree child new : FileTree} {name : FileName} {names others : List FileName}
variable {old content : List UInt8} {entry : FileName × FileTree}

/-! ## Changes below an entry -/

theorem fst_replaceEntry (name : FileName) (new : FileTree) (entry : FileName × FileTree) :
    (replaceEntry name new entry).1 = entry.1 := by
  rw [replaceEntry]
  split
  · rename_i same
    exact same.symm
  · rfl

/-- A change below an entry that is there gives the directory with another tree in the entry. -/
theorem change_cons (at? : Option FileTree → FileTree) (names : List FileName)
    (found : tree.child? name = some child) :
    ∃ entries, tree = .directory entries ∧ change at? (name :: names) (some tree) =
      .directory (entries.map (replaceEntry name (change at? names (some child)))) := by
  obtain ⟨entry, isEntry, -⟩ := Option.map_eq_some_iff.mp found
  cases tree with
  | file content => cases isEntry
  | directory entries =>
    have isName := List.find?_some isEntry
    have isThere : entries.any fun entry => entry.1 = name :=
      List.any_eq_true.mpr ⟨entry, List.mem_of_find?_eq_some isEntry, isName⟩
    refine ⟨entries, rfl, ?_⟩
    rw [change, Option.getD_some, found]
    exact if_pos isThere

theorem names?_change (at? : Option FileTree → FileTree) (names : List FileName)
    (found : tree.child? name = some child) :
    (change at? (name :: names) (some tree)).names? = tree.names? := by
  obtain ⟨entries, rfl, changed⟩ := change_cons at? names found
  rw [changed, names?, names?, List.map_map]
  exact congrArg some (List.map_congr_left fun entry _ => fst_replaceEntry ..)

/-- Another entry than the one that is changed keeps its tree. -/
theorem child?_change (at? : Option FileTree → FileTree) (names : List FileName)
    (found : tree.child? name = some child) (other : FileName) :
    (change at? (name :: names) (some tree)).child? other =
      if other = name then some (change at? names (some child)) else tree.child? other := by
  obtain ⟨entries, rfl, changed⟩ := change_cons at? names found
  rw [changed, FileTree.child?, FileTree.child?, FileTree.entries, FileTree.entries, List.find?_map]
  simp only [Function.comp_def, fst_replaceEntry, Option.map_map]
  cases isEntry : entries.find? fun entry => entry.1 = other with
  | none =>
    have differ : other ≠ name := by
      rintro rfl
      rw [FileTree.child?, FileTree.entries, isEntry] at found
      cases found
    rw [if_neg differ]
    rfl
  | some entry =>
    have isOther := List.find?_some isEntry
    obtain rfl := of_decide_eq_true isOther
    rw [Option.map_some, Option.map_some, replaceEntry]
    split
    · rfl
    · rfl

/-! ## Another content of a file -/

/-- What names lead to when the file at the end of some names has got another content: a directory
lists the same names, and another file has the same content. -/
theorem descend?_write (isFile : tree.descend? names = some (.file old)) (content : List UInt8)
    (others : List FileName) :
    ((tree.write names content).descend? others).map names? =
        (tree.descend? others).map names? ∧
      ((tree.write names content).descend? others).bind content? =
        if others = names then some content else (tree.descend? others).bind content? := by
  induction names generalizing tree others with
  | nil =>
    obtain rfl := Option.some.inj isFile
    cases others with
    | nil => exact ⟨rfl, rfl⟩
    | cons other others => exact ⟨rfl, rfl⟩
  | cons name names ih =>
    obtain ⟨child, isChild, further⟩ := Option.bind_eq_some_iff.mp isFile
    cases others with
    | nil =>
      have sameNames := names?_change (fun _ => .file content) names isChild
      obtain ⟨entries, rfl, changed⟩ := change_cons (fun _ => .file content) names isChild
      refine ⟨congrArg some sameNames, ?_⟩
      rw [write, changed]
      rfl
    | cons other others =>
      have childEq := child?_change (fun _ => .file content) names isChild other
      rw [descend?, descend?, write, childEq]
      -- Other names either go on along the way to the file or leave it for a tree that is kept.
      by_cases here : other = name
      · subst here
        obtain ⟨sameNames, sameContents⟩ := ih further others
        rw [if_pos rfl, isChild]
        simp only [Option.bind_some, List.cons.injEq, true_and]
        exact ⟨sameNames, sameContents⟩
      · have differ : other :: others ≠ name :: names := fun same => here (List.cons.inj same).1
        rw [if_neg here, if_neg differ]
        exact ⟨rfl, rfl⟩

/-! ## The file system of the tree -/

variable {other : FileTree} {working place : List FileName} {path : String} {text : List Char}

/-- Where trees have the same names everywhere, the same stands at the end of all names. -/
theorem kindAt?_congr
    (same : ∀ names, (other.descend? names).map names? = (tree.descend? names).map names?)
    (names : List FileName) : other.kindAt? names = tree.kindAt? names := by
  have kindEq : kind = (fun names => if names.isSome then .directory else .file) ∘ names? := by
    funext tree
    cases tree <;> rfl
  rw [kindAt?, kindAt?, kindEq, ← Option.map_map, same, Option.map_map]

/-- Paths lead to the same places then. -/
theorem follow?_congr
    (same : ∀ names, (other.descend? names).map names? = (tree.descend? names).map names?)
    (parts : List String) : other.follow? place parts = tree.follow? place parts := by
  induction parts generalizing place with
  | nil => rfl
  | cons part parts ih => simp only [follow?, kindAt?_congr same, ih]

theorem locate?_congr
    (same : ∀ names, (other.descend? names).map names? = (tree.descend? names).map names?) :
    other.locate? working = tree.locate? working := by
  funext path
  rw [locate?, locate?, follow?_congr same]

theorem overwritten_writeText {old : List UInt8}
    (isFile : (tree.fileSystem working).content? path = some old) (text : List Char) :
    (tree.fileSystem working).Overwritten ((tree.writeText working path text).fileSystem working)
      [(path, text)] := by
  obtain ⟨found, isFound, isContent⟩ := Option.bind_eq_some_iff.mp isFile
  obtain ⟨place, isPlace, leads⟩ := Option.bind_eq_some_iff.mp isFound
  have leadsToFile : tree.descend? place = some (.file old) := by
    cases found with
    | file content =>
      obtain rfl := Option.some.inj isContent
      exact leads
    | directory entries => cases isContent
  have written := descend?_write leadsToFile (Text.Utf8.encode text)
  have same := fun names => (written names).1
  have sameLocation : (tree.write place (Text.Utf8.encode text)).locate? working =
      tree.locate? working := locate?_congr same
  rw [writeText, isPlace]
  refine ⟨funext fun other => ?_, funext fun other => ?_, sameLocation,
    List.forall_mem_singleton.mpr ?_, fun other away => ?_⟩ <;>
    simp only [fileSystem, sameLocation]
  · cases tree.locate? working other with
    | none => rfl
    | some names => exact kindAt?_congr same names
  · cases tree.locate? working other with
    | none => rfl
    | some names =>
      have sameNames := congrArg (·.bind id) (same names)
      simpa only [Option.bind_map, Function.id_comp, Option.bind_some] using sameNames
  · rw [isPlace, Option.bind_some, (written place).2, if_pos rfl]
  · have differ := List.forall_mem_singleton.mp away
    cases isOther : tree.locate? working other with
    | none => rfl
    | some names =>
      have apart : names ≠ place := by
        rintro rfl
        exact differ (isPlace.trans isOther.symm)
      rw [Option.bind_some, (written names).2, if_neg apart]
      rfl

/-- Texts that are written to files in different places all stand there in the end. -/
theorem overwritten_writeAll {writes : List (String × List Char)}
    (areFiles : ∀ write ∈ writes, ∃ old, (tree.fileSystem working).content? write.1 = some old)
    (apart : writes.Pairwise fun write next => (tree.fileSystem working).location? write.1 ≠
      (tree.fileSystem working).location? next.1) :
    (tree.fileSystem working).Overwritten ((tree.writeAll working writes).fileSystem working)
      writes := by
  induction writes generalizing tree with
  | nil => exact .refl _
  | cons write writes ih =>
    obtain ⟨apartHere, apartThere⟩ := List.pairwise_cons.mp apart
    obtain ⟨⟨old, isFile⟩, areFiles⟩ := List.forall_mem_cons.mp areFiles
    have first := overwritten_writeText isFile write.2
    refine first.cons (ih (fun next inside => ?_) (by rwa [first.location])) apartHere
    obtain ⟨oldNext, isFileNext⟩ := areFiles next inside
    refine ⟨oldNext, ?_⟩
    rwa [first.kept _ (List.forall_mem_singleton.mpr (apartHere next inside))]

end FileTree

end ServiceAnnotator
