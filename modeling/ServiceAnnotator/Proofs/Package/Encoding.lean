import ServiceAnnotator.Proofs.Package.Edits
import ServiceAnnotator.Proofs.Package.Listing
import ServiceAnnotator.Proofs.Package.Sources
import ServiceAnnotator.Proofs.Text.Insertion
import ServiceAnnotator.Toml.Manifest

/-!
# Files that are not valid UTF-8

A file that is not valid UTF-8 becomes a document all the same, with replacements in its text. The
error at the end of its valid part keeps the whole package from being changed, so that no
replacement is ever written back.
-/

namespace ServiceAnnotator

namespace Text.Utf8

/-- A text is the longest valid part at the front of bytes. -/
structure IsValidPart (valid : List Char) (bytes : List UInt8) : Prop where
  front : encode valid <+: bytes
  longest : ∀ cs, encode cs <+: bytes → encode cs <+: encode valid

theorem isValidPart_validPrefix (bytes : List UInt8) : IsValidPart (validPrefix bytes) bytes where
  front := by
    obtain ⟨rest, isSplit, _⟩ := exists_eq_encode_validPrefix bytes
    exact ⟨rest, isSplit.symm⟩
  longest := by
    intro cs isFront
    obtain ⟨more, isMore⟩ := prefix_validPrefix isFront
    exact ⟨encode more, by rw [← encode_append, isMore]⟩

end Text.Utf8

/-! ## The files of a package -/

namespace FileSystem

variable {system : FileSystem} {directory root : String}

/-- Whether files have the contents that stand at their paths. -/
def Stores (system : FileSystem) (files : List SourceFile) : Prop :=
  ∀ file ∈ files, system.content? file.path = some file.content

theorem stores_of_sourcesIn {files : List SourceFile}
    (read : system.sourcesIn directory = .ok files) : system.Stores files := by
  rw [sourcesIn_eq_ok_iff] at read
  obtain ⟨names, _, read⟩ := read
  generalize names.filter (system.isSource directory) = sources at read
  induction read with
  | nil => exact nofun
  | cons isFile _ ih => exact List.forall_mem_cons.mpr ⟨isFile.2, ih⟩

theorem stores_of_moduleIn {name : String} {sources : ModuleSources}
    (read : system.moduleIn name directory = .ok sources) : system.Stores sources.files := by
  obtain ⟨_, main, test⟩ := moduleIn_eq_ok_iff.mp read
  refine List.forall_mem_append.mpr ⟨stores_of_sourcesIn main, ?_⟩
  rw [testsIn_eq_ok_iff] at test
  split at test
  · exact stores_of_sourcesIn test
  · rw [test]
    exact nofun

theorem stores_of_furtherModules {name : String} {modules : List ModuleSources}
    (read : system.furtherModules name root = .ok modules) :
    system.Stores (modules.flatMap ModuleSources.files) := by
  rw [furtherModules_eq_ok_iff] at read
  split at read
  · obtain ⟨names, _, read⟩ := read
    generalize names.filter _ = directories at read
    induction read with
    | nil => exact nofun
    | cons isModule _ ih => exact List.forall_mem_append.mpr ⟨stores_of_moduleIn isModule, ih⟩
  · rw [read]
    exact nofun

end FileSystem

/-! ## The errors of a document -/

namespace SourceFile

theorem document_of_mem_problem? {id : DocumentId} {file : SourceFile} {entry : DocumentDiagnostic}
    (isProblem : entry ∈ file.problem? id) : entry.document = id := by
  rw [problem?] at isProblem
  split at isProblem
  · cases isProblem
  · exact congrArg DocumentDiagnostic.document (Option.some.inj isProblem).symm

theorem le_of_mem_problemsFrom {first : DocumentId} {files : List SourceFile}
    {entry : DocumentDiagnostic} (inside : entry ∈ problemsFrom first files) :
    first ≤ entry.document := by
  obtain ⟨⟨file, id⟩, isNumbered, isProblem⟩ := List.mem_filterMap.mp inside
  rw [document_of_mem_problem? isProblem]
  exact List.le_snd_of_mem_zipIdx isNumbered

/-- The errors of a document are those of its file. -/
theorem filter_problemsFrom (first : DocumentId) {files : List SourceFile} {position : Nat}
    {file : SourceFile} (isThere : files[position]? = some file) :
    (problemsFrom first files).filter (fun entry => entry.document = first + position) =
      (file.problem? (first + position)).toList := by
  induction files generalizing first position with
  | nil => cases isThere
  | cons head files ih =>
    rw [problemsFrom_cons, List.filter_append]
    cases position with
    | zero =>
      obtain rfl := Option.some.inj isThere
      have own : ∀ entry ∈ (head.problem? first).toList, entry.document = first :=
        fun entry inside => document_of_mem_problem? (Option.mem_toList.mp inside)
      have later : ∀ entry ∈ problemsFrom (first + 1) files, entry.document ≠ first := by
        intro entry inside
        exact Nat.ne_of_gt (le_of_mem_problemsFrom inside)
      rw [Nat.add_zero, List.filter_eq_self.mpr (by simpa using own),
        List.filter_eq_nil_iff.mpr (by simpa using later), List.append_nil]
    | succ position =>
      have earlier : ∀ entry ∈ (head.problem? first).toList,
          entry.document ≠ first + (position + 1) := by
        intro entry inside
        rw [document_of_mem_problem? (Option.mem_toList.mp inside)]
        exact Nat.ne_of_lt (Nat.lt_add_of_pos_right position.succ_pos)
      have further := ih (first + 1) isThere
      rw [Nat.add_assoc, Nat.add_comm 1] at further
      rw [List.filter_eq_nil_iff.mpr (by simpa using earlier), List.nil_append, further]

end SourceFile

namespace Package

/-- The problems met while reading a document. -/
def loadDiagnosticsOf (package : Package) (id : DocumentId) : List Diagnostic :=
  (package.loadDiagnostics.filter fun entry => entry.document = id).map
    DocumentDiagnostic.diagnostic

theorem hasErrors_of_mem {package : Package} {entry : DocumentDiagnostic}
    (inside : entry ∈ package.loadDiagnostics) (isError : entry.diagnostic.isError) :
    package.hasErrors := by
  simp only [hasErrors, diagnostics, Diagnostic.allowChanges, Bool.not_not, List.any_map,
    List.any_append, Bool.or_eq_true, List.any_eq_true]
  exact .inl ⟨entry, inside, isError⟩

/-- Each document has the text that its file's content stands for, and the errors of its file. -/
theorem exists_file_of_load {reader : ManifestReader} {system : FileSystem} {root : String}
    {package : Package} (loaded : Package.load reader system root = .ok package)
    {id : DocumentId} {document : PackageDocument}
    (isThere : package.documents[id]? = some document) :
    ∃ file : SourceFile, system.content? document.path = some file.content ∧
      document.text = Text.Utf8.decodeLossy file.content ∧
      package.loadDiagnostics.filter (fun entry => entry.document = id) =
        (file.problem? id).toList := by
  obtain ⟨_, name, first, further, _, isFirst, isFurther, rfl⟩ := load_eq_ok_iff.mp loaded
  have stores : system.Stores ((first :: further).flatMap ModuleSources.files) :=
    List.forall_mem_append.mpr
      ⟨FileSystem.stores_of_moduleIn isFirst, FileSystem.stores_of_furtherModules isFurther⟩
  rw [ofSources_eq] at isThere ⊢
  have isPath := congrArg (·[id]?) (ModuleSources.map_path_documentsFrom 0 0 (first :: further))
  have isText := congrArg (·[id]?) (ModuleSources.map_text_documentsFrom 0 0 (first :: further))
  simp only [List.getElem?_map, isThere, Option.map_some] at isPath isText
  obtain ⟨file, isFile, samePath⟩ := Option.map_eq_some_iff.mp isPath.symm
  rw [isFile] at isText
  refine ⟨file, ?_, Option.some.inj isText, ?_⟩
  · rw [← samePath]
    exact stores file (List.mem_of_getElem? isFile)
  · simpa using SourceFile.filter_problemsFrom 0 isFile

/-- What becomes of bytes that are not valid UTF-8: the text is their longest valid part with a
replacement right behind it, and the one error stands between the two. -/
def Flags (package : Package) (id : DocumentId) (text : List Char) (bytes : List UInt8) : Prop :=
  ∃ valid more, Text.Utf8.IsValidPart valid bytes ∧ text = valid ++ '\ufffd' :: more ∧
    Text.splitAt? (Text.Utf8.encode valid).length text = some (valid, '\ufffd' :: more) ∧
    package.loadDiagnosticsOf id =
      [⟨.error, "file is not valid UTF-8", .empty (Text.Utf8.encode valid).length⟩]

/-- Every document of a package comes from bytes of the file system. Valid bytes are taken as they
are. For bytes that are not valid the document has an error, which keeps the pass from changing any
document of the package. -/
theorem decodes_of_load {reader : ManifestReader} {system : FileSystem} {root : String}
    {package : Package} (loaded : Package.load reader system root = .ok package) {id : DocumentId}
    {document : PackageDocument} (isThere : package.documents[id]? = some document) :
    ∃ bytes, system.content? document.path = some bytes ∧
      ((∃ cs, Text.Utf8.encode cs = bytes) →
        Text.Utf8.encode document.text = bytes ∧ package.loadDiagnosticsOf id = []) ∧
      ((¬∃ cs, Text.Utf8.encode cs = bytes) →
        package.Flags id document.text bytes ∧ package.hasErrors ∧ package.edits = [] ∧
          package.hostCalls = []) := by
  obtain ⟨file, isContent, isText, own⟩ := exists_file_of_load loaded isThere
  refine ⟨file.content, isContent, ?_, fun invalid => ?_⟩
  · rintro ⟨cs, isForm⟩
    rw [SourceFile.problem?, ← isForm, Text.Utf8.decode?_encode] at own
    rw [isText, ← isForm, Text.Utf8.decodeLossy_encode, loadDiagnosticsOf, own]
    exact ⟨rfl, rfl⟩
  · obtain ⟨more, isLossy⟩ := Text.Utf8.decodeLossy_of_invalid invalid
    rw [SourceFile.problem?, if_neg (mt Text.Utf8.isSome_decode?_iff.mp invalid),
      Option.toList_some] at own
    have wrong : package.hasErrors :=
      hasErrors_of_mem (List.mem_of_mem_filter (own ▸ List.mem_singleton_self _)) rfl
    have noEdits : package.edits = [] := if_pos wrong
    refine ⟨⟨Text.Utf8.validPrefix file.content, more, Text.Utf8.isValidPart_validPrefix _,
      isText.trans isLossy, ?_, ?_⟩, wrong, noEdits, by rw [hostCalls, noEdits, List.map_nil]⟩
    · rw [isText, isLossy, Text.Utf8.length_encode]
      exact Text.splitAt?_byteLength ..
    · rw [loadDiagnosticsOf, own, Text.Utf8.length_encode, List.map_singleton]

theorem decodes_of_load_demo :
    Package.load Manifest.ofText? FileSystem.demo "/demo" = .ok FileSystem.demoPackage ∧
      FileSystem.demo.content? "/demo/tests/t.bal" = some [0x78, 0xc3, 0xa9, 0xff] ∧
      FileSystem.demoPackage.Flags 1 ['x', 'é', '\ufffd'] [0x78, 0xc3, 0xa9, 0xff] ∧
      FileSystem.demoPackage.edits = [] := by
  have isThere : FileSystem.demoPackage.documents[1]? =
      some ⟨⟨0, "/demo/tests/t.bal", ['x', 'é', '\ufffd']⟩, 1⟩ := rfl
  have isContent : FileSystem.demo.content? "/demo/tests/t.bal" =
      some [0x78, 0xc3, 0xa9, 0xff] := rfl
  obtain ⟨bytes, isBytes, _, invalid⟩ :=
    decodes_of_load (FileSystem.load_demo Manifest.ofText?) isThere
  obtain rfl := Option.some.inj (isBytes.symm.trans isContent)
  have undecoded : Text.Utf8.decode? [0x78, 0xc3, 0xa9, 0xff] = none := by decide +kernel
  have notAText : ¬∃ cs, Text.Utf8.encode cs = [0x78, 0xc3, 0xa9, 0xff] := by
    rintro ⟨cs, isForm⟩
    rw [← isForm, Text.Utf8.decode?_encode] at undecoded
    cases undecoded
  obtain ⟨flags, _, noEdits, _⟩ := invalid notAText
  exact ⟨FileSystem.load_demo _, isContent, flags, noEdits⟩

end Package

end ServiceAnnotator
