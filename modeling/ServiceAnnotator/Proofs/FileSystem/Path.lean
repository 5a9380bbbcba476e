import Mathlib.Data.List.TakeDrop
import ServiceAnnotator.FileSystem.Basic
import ServiceAnnotator.Proofs.Text.Utf8

/-!
# Names and paths

The entries of a directory have names without slashes. Such names can be read off a path again, so
that different names lead to different places.
-/

namespace ServiceAnnotator

/-- What every file system guarantees: a directory lists each of its entries once, and the name of
an entry is not empty and has no slash. -/
structure FileSystem.Proper (system : FileSystem) : Prop where
  once : ∀ directory entries, system.names? directory = some entries → entries.Nodup
  plain : ∀ directory entries, system.names? directory = some entries →
    ∀ entry ∈ entries, entry ≠ [] ∧ 0x2f ∉ entry

/-! ## Extensions -/

/-- A name has an extension if something stands in front of its last dot. -/
theorem extension?_eq_some_iff {name extension : String} :
    extension? name = some extension ↔
      '.' ∉ extension.toList ∧ ∃ stem ≠ [], name.toList = stem ++ '.' :: extension.toList := by
  rw [extension?, List.span_eq_takeWhile_dropWhile]
  constructor
  · have parts : name.toList = (name.toList.reverse.dropWhile (· ≠ '.')).reverse ++
        (name.toList.reverse.takeWhile (· ≠ '.')).reverse := by
      rw [← List.reverse_append, List.takeWhile_append_dropWhile, List.reverse_reverse]
    have noDot : '.' ∉ name.toList.reverse.takeWhile (· ≠ '.') :=
      fun inside => by simpa using List.all_eq_true.mp List.all_takeWhile _ inside
    match isBefore : name.toList.reverse.dropWhile (· ≠ '.') with
    | [] | [_] => exact nofun
    | dot :: last :: more =>
      intro isExtension
      obtain rfl := Option.some.inj isExtension
      have isDot : dot = '.' := by
        have stops : name.toList.reverse.dropWhile (· ≠ '.') ≠ [] := isBefore ▸ List.cons_ne_nil _ _
        have head := List.head_dropWhile_not (· ≠ '.') stops
        simp only [isBefore, List.head_cons, decide_eq_false_iff_not, not_not] at head
        exact head
      rw [isBefore, isDot] at parts
      exact ⟨by simpa using noDot, (last :: more).reverse, by simp, parts.trans (by simp)⟩
  · rintro ⟨noDot, stem, isStem, isName⟩
    have reversed : name.toList.reverse = extension.toList.reverse ++ '.' :: stem.reverse := by
      simp [isName]
    have others : ∀ c ∈ extension.toList.reverse, decide (c ≠ '.') = true := by
      intro c inside
      exact decide_eq_true fun isDot => noDot (isDot ▸ List.mem_reverse.mp inside)
    rw [reversed, List.takeWhile_append_of_pos others, List.dropWhile_append_of_pos others]
    obtain ⟨first, more, isFirst⟩ :=
      List.exists_cons_of_ne_nil (mt List.reverse_eq_nil_iff.mp isStem)
    simp [isFirst]

/-! ## Paths -/

/-- What stands in front of an entry's name in its path. -/
def pathFront (directory : String) : List Char :=
  if directory.isEmpty then []
  else if directory.toList.getLast? = some '/' then directory.toList
  else directory.toList ++ ['/']

theorem toList_entryPath (directory name : String) :
    (entryPath directory name).toList = pathFront directory ++ name.toList := by
  rw [entryPath, pathFront]
  split
  · rfl
  · split
    · exact String.toList_append
    · rw [String.toList_append, String.toList_append]
      rfl

/-- Whether a name can stand between slashes. -/
def IsPlainName (name : String) : Prop := name.toList ≠ [] ∧ '/' ∉ name.toList

theorem FileName.ofText_inj {name other : String} (same : ofText name = ofText other) :
    name = other :=
  String.toList_inj.mp (Text.Utf8.encode_inj same)

/-- The name of an entry is plain if its bytes are. -/
theorem isPlainName_of_ofText {name : String} (notEmpty : FileName.ofText name ≠ [])
    (noSlash : 0x2f ∉ FileName.ofText name) : IsPlainName name := by
  refine ⟨fun isEmpty => notEmpty (by rw [FileName.ofText, isEmpty]; rfl), fun slash => noSlash ?_⟩
  exact List.mem_flatMap.mpr ⟨'/', slash, by decide⟩

theorem isEmpty_entryPath {name : String} (noName : name.toList ≠ []) (directory : String) :
    (entryPath directory name).isEmpty = false := by
  rw [Bool.eq_false_iff]
  intro isEmpty
  have parts := toList_entryPath directory name
  rw [String.isEmpty_iff.mp isEmpty] at parts
  exact noName (List.append_eq_nil_iff.mp parts.symm).2

theorem pathFront_entryPath {name : String} (plain : IsPlainName name) (directory : String) :
    pathFront (entryPath directory name) = (entryPath directory name).toList ++ ['/'] := by
  obtain ⟨notEmpty, noSlash⟩ := plain
  have isLast : (entryPath directory name).toList.getLast? = name.toList.getLast? := by
    rw [toList_entryPath, List.getLast?_append,
      Option.or_of_isSome (List.getLast?_isSome.mpr notEmpty)]
  rw [pathFront, isEmpty_entryPath notEmpty, if_neg Bool.false_ne_true, isLast, if_neg]
  exact fun slash => noSlash (List.mem_of_getLast? slash)

/-- The path of an entry of an entry, and so on, told by the names on the way. -/
theorem toList_foldl_entryPath {names : List String} (plain : ∀ name ∈ names, IsPlainName name)
    (some : names ≠ []) (root : String) :
    (names.foldl entryPath root).toList =
      pathFront root ++ ['/'].intercalate (names.map String.toList) := by
  induction names generalizing root with
  | nil => exact absurd rfl some
  | cons name names ih =>
    have isPlain := plain name List.mem_cons_self
    rw [List.foldl_cons]
    cases names with
    | nil => simp [toList_entryPath]
    | cons next names =>
      rw [ih (fun name inside => plain name (List.mem_cons_of_mem _ inside)) (List.cons_ne_nil _ _),
        pathFront_entryPath isPlain, toList_entryPath]
      simp only [List.map_cons, List.intercalate_cons_cons, List.append_assoc]

/-- Different names lead to different paths. -/
theorem foldl_entryPath_inj {names others : List String}
    (plain : ∀ name ∈ names, IsPlainName name) (plainOthers : ∀ name ∈ others, IsPlainName name)
    (some : names ≠ []) (someOthers : others ≠ []) {root : String}
    (same : names.foldl entryPath root = others.foldl entryPath root) : names = others := by
  have noSlash {names : List String} (plain : ∀ name ∈ names, IsPlainName name) :
      ∀ name ∈ names.map String.toList, '/' ∉ name := by
    intro _ inside
    obtain ⟨name, isName, rfl⟩ := List.mem_map.mp inside
    exact (plain name isName).2
  have sameText := congrArg String.toList same
  rw [toList_foldl_entryPath plain some, toList_foldl_entryPath plainOthers someOthers] at sameText
  have sameNames := congrArg (List.splitOn '/') (List.append_cancel_left sameText)
  rw [List.splitOn_intercalate '/' (noSlash plain) (mt List.map_eq_nil_iff.mp some),
    List.splitOn_intercalate '/' (noSlash plainOthers) (mt List.map_eq_nil_iff.mp someOthers)]
    at sameNames
  exact List.map_inj_right (fun _ _ => String.toList_inj.mp) |>.mp sameNames

end ServiceAnnotator
