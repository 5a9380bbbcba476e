/-!
# Tables of TOML

A table is written in parts: a pair of a key and a value, a header that opens a table, or a value
that is a table of its own. How a table came about decides which parts may still add to it.
-/

namespace ServiceAnnotator.Toml

/-- A part of a key. -/
abbrev Key := List Char

/-- How a table came about. -/
inductive Origin where
  /-- As a value. Nothing adds to it. -/
  | value
  /-- By its own header, or as the whole document. -/
  | header
  /-- By a header of a table inside it. Its own header may follow. -/
  | implied
  /-- By a dotted key. Other dotted keys may add to it. -/
  | dotted
  deriving DecidableEq, Repr

/-- What a key stands for. Of numbers, truth values, dates and times only their presence is kept. -/
inductive Item where
  | text (cs : List Char)
  /-- A number or a truth value. -/
  | scalar
  /-- A date, a time, or both. -/
  | moment
  | array (items : List Item)
  | table (origin : Origin) (entries : List (Key × Item))
  /-- Tables with one header each, all of the same name. -/
  | tables (items : List (List (Key × Item)))

/-- Keys and what they stand for, the first key first. -/
abbrev Entries := List (Key × Item)

namespace Entries

/-- What a key stands for. -/
def get? (entries : Entries) (key : Key) : Option Item :=
  (entries.find? fun entry => entry.1 = key).map Prod.snd

/-- The entries with another item for a key. -/
def put (entries : Entries) (key : Key) (item : Item) : Entries :=
  if (entries.get? key).isSome then
    entries.map fun entry => if entry.1 = key then (key, item) else entry
  else entries ++ [(key, item)]

end Entries

/-- A key with dots in it: the tables it leads through and the key in the last of them. -/
structure KeyPath where
  parents : List Key
  name : Key
  deriving DecidableEq, Repr

/-- A value and the key in front of it. -/
structure Pair where
  path : KeyPath
  item : Item

/-- The line above the pairs of a table. -/
inductive Header where
  /-- The pairs make up the only table of this name. -/
  | table (path : KeyPath)
  /-- The pairs make up one more table of this name. -/
  | tables (path : KeyPath)

/-- A header and the pairs below it. -/
structure Section where
  header : Header
  pairs : List Pair

namespace Entries

/-- The origin of tables that are made on the way: by a dotted key or by a header. -/
def made (dotted : Bool) : Origin := if dotted then .dotted else .implied

/-- Changes the table that keys lead to, which is told its origin. Missing tables are made on the
way. Of several tables of one name the way leads through the last one. A dotted key does not lead
through a table with a header, and nothing leads through a value. -/
def changeIn (dotted : Bool) (change : Origin → Entries → Option Entries) :
    List Key → Origin → Entries → Option Entries
  | [], origin, entries => change origin entries
  | key :: path, _, entries =>
    match entries.get? key with
    | none => do
      let inner ← changeIn dotted change path (made dotted) []
      pure (entries.put key (.table (made dotted) inner))
    | some (.table origin inner) =>
      if origin = .value ∨ (dotted ∧ origin = .header) then none
      else do
        let inner ← changeIn dotted change path origin inner
        pure (entries.put key (.table origin inner))
    | some (.tables items) => do
      let last ← items.getLast?
      let changed ← changeIn dotted change path .header last
      pure (entries.put key (.tables (items.dropLast ++ [changed])))
    | some _ => none

/-- The entries with one more pair. Its key has to be new, and a dotted key has to lead to a table
that came about by dotted keys. -/
def addPair (entries : Entries) (pair : Pair) : Option Entries :=
  let add (origin : Origin) (inner : Entries) : Option Entries :=
    if (inner.get? pair.path.name).isSome ∨ (pair.path.parents ≠ [] ∧ origin ≠ .dotted) then none
    else some (inner.put pair.path.name pair.item)
  entries.changeIn true add pair.path.parents .header

/-- The entries with more pairs. -/
def addPairs (entries : Entries) (pairs : List Pair) : Option Entries := pairs.foldlM addPair entries

/-- The entries of a document with one more section. A table has one header, and only one that came
about by the header of another table may still get it. -/
def addSection (entries : Entries) (added : Section) : Option Entries :=
  match added.header with
  | .table path =>
    let add (_ : Origin) (inner : Entries) : Option Entries :=
      match inner.get? path.name with
      | none => do pure (inner.put path.name (.table .header (← addPairs [] added.pairs)))
      | some (.table .implied old) => do
        pure (inner.put path.name (.table .header (← addPairs old added.pairs)))
      | some _ => none
    entries.changeIn false add path.parents .header
  | .tables path =>
    let add (_ : Origin) (inner : Entries) : Option Entries := do
      let new ← addPairs [] added.pairs
      match inner.get? path.name with
      | none => pure (inner.put path.name (.tables [new]))
      | some (.tables items) => pure (inner.put path.name (.tables (items ++ [new])))
      | some _ => none
    entries.changeIn false add path.parents .header

/-- The entries of a document: the pairs before the first header, and the sections. -/
def ofSections? (pairs : List Pair) (sections : List Section) : Option Entries := do
  sections.foldlM addSection (← addPairs [] pairs)

end Entries

end ServiceAnnotator.Toml
