import ServiceAnnotator.Syntax.Kind

/-!
# Sets of kinds

The grammar decides by sets of kinds where a construct may start or end and where recovery after an
error stops.
-/

namespace ServiceAnnotator

/-- A set of kinds, given by its members. -/
structure KindSet where
  contains : Kind → Bool

namespace KindSet

/-- The set without members. -/
def empty : KindSet := ⟨fun _ => false⟩

/-- The set of the kinds in a list. -/
def ofList (kinds : List Kind) : KindSet := ⟨fun kind => kinds.contains kind⟩

/-- A set with one more member. -/
def insert (set : KindSet) (member : Kind) : KindSet :=
  ⟨fun kind => kind == member || set.contains kind⟩

/-- The members of either set. -/
def union (set other : KindSet) : KindSet :=
  ⟨fun kind => set.contains kind || other.contains kind⟩

/-- The members in the order in which kinds are declared. -/
def toList (set : KindSet) : List Kind := Kind.all.filter set.contains

/-- Whether two sets have the same members. -/
def sameMembers (set other : KindSet) : Bool := set.toList == other.toList

end KindSet

end ServiceAnnotator
