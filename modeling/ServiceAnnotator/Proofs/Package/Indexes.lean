import ServiceAnnotator.Proofs.Package.Edits

/-!
# The indexes of a package agree

A package tells twice to which half of which module a document belongs: by the module that the
document names, and by the lists of that module. Both agree after any additions. The numbers that
additions return are positions, and what stands at a position stays there.
-/

namespace ServiceAnnotator

/-- The documents that a half of a module lists. -/
def PackageModule.listed (found : PackageModule) : SourceSet → List DocumentId
  | .main => found.main
  | .test => found.test

/-- The numbers that additions returned: those of modules and those of documents, in the order in
which they were returned. -/
structure Numbers where
  modules : List ModuleId
  documents : List DocumentId
  deriving DecidableEq, Repr

namespace Package

/-! ## Numbers that are returned -/

/-- The positions of the modules and of the documents of a package. -/
def positions (package : Package) : Numbers :=
  ⟨List.range package.modules.length, List.range package.documents.length⟩

/-- Every number of a package names the same module or document in a later one; a module may list
more documents there, behind those that it lists already. -/
structure Extends (earlier later : Package) : Prop where
  documents : earlier.documents <+: later.documents
  modules : ∀ (owner : ModuleId) (found : PackageModule), earlier.modules[owner]? = some found →
    ∃ grown, later.modules[owner]? = some grown ∧ grown.id = found.id ∧ grown.name = found.name ∧
      ∀ set, found.listed set <+: grown.listed set

namespace Extends

theorem refl (package : Package) : package.Extends package :=
  ⟨List.prefix_rfl, fun _ found isThere => ⟨found, isThere, rfl, rfl, fun _ => List.prefix_rfl⟩⟩

theorem trans {first second third : Package} (left : first.Extends second)
    (right : second.Extends third) : first.Extends third := by
  refine ⟨left.documents.trans right.documents, ?_⟩
  intro owner found isThere
  obtain ⟨grown, isGrown, sameId, sameName, lists⟩ := left.modules owner found isThere
  obtain ⟨last, isLast, stillId, stillName, further⟩ := right.modules owner grown isGrown
  exact ⟨last, isLast, stillId.trans sameId, stillName.trans sameName,
    fun set => (lists set).trans (further set)⟩

end Extends

end Package

namespace History

/-! ## The lists of modules -/

variable {history : History}

/-- What is added behind `interleaved`: a module, and a document of the first module. -/
def added : History := [.ofModule "demo.b", .ofDocument ⟨0, "z.bal", []⟩ .main]

end History

end ServiceAnnotator
