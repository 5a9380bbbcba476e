import ServiceAnnotator.Package.Discovery
import ServiceAnnotator.Toml.Document

/-!
# Manifests

The manifest of a package is a TOML document, of which only the package's name matters.
-/

namespace ServiceAnnotator

namespace Manifest

open Toml

/-- The name that an item gives. It has to be a string. -/
def ofName? : Option Item → Option Manifest
  | none => some ⟨none⟩
  | some (.text cs) => some ⟨some cs⟩
  | some _ => none

/-- The manifest of a document. The package may be described by a table, of which the name is one
entry, or by an array, of which the name is the first item; a date or a time describes a package
without a name. -/
def ofEntries? (entries : Entries) : Option Manifest :=
  match entries.get? "package".toList with
  | none => some ⟨none⟩
  | some (.table _ inner) => ofName? (Entries.get? inner "name".toList)
  | some (.array items) => ofName? items.head?
  | some .moment => some ⟨none⟩
  | some _ => none

/-- The manifest that a text describes. -/
def ofText? (text : List Char) : Option Manifest := (document? text).bind ofEntries?

end Manifest

end ServiceAnnotator
