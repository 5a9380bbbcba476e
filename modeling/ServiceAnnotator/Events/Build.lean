import ServiceAnnotator.Events.Rules

/-!
# From events to a tree

The events are gone through once. A node that has got a parent is not opened before its parent, so
the parents are looked up ahead, and their own events are struck out. The tree is then assembled
from the calls that open nodes, take tokens and close nodes.
-/

namespace ServiceAnnotator

/-- What a call says about a token: its kind, its place in the text, and the lengths of its
trivia. -/
def PlacedToken.raw (placed : PlacedToken) :
    List (PieceKind × Nat) × Kind × Span × List (PieceKind × Nat) :=
  (placed.token.leading.map fun piece => (piece.kind, Text.byteLength piece.text),
    placed.token.kind, placed.lexemeSpan,
    placed.token.trailing.map fun piece => (piece.kind, Text.byteLength piece.text))

namespace Events

/-- Number of events that are not struck out. -/
def standing (events : List Event) : Nat := events.countP (· ≠ .tombstone)

/-- An event that is struck out counts no more. -/
theorem standing_set {events : List Event} {index : Nat} {event : Event}
    (found : events[index]? = some event) :
    standing (events.set index .tombstone) + (if event = .tombstone then 0 else 1) =
      standing events := by
  obtain ⟨inside, rfl⟩ := List.getElem?_eq_some_iff.mp found
  have counted : events[index] ≠ .tombstone → 0 < standing events := fun stood =>
    List.countP_pos_iff.mpr ⟨_, List.getElem_mem inside, decide_eq_true stood⟩
  rw [standing] at counted ⊢
  rw [standing, List.countP_set inside,
    show decide (Event.tombstone ≠ .tombstone) = false from decide_eq_false (not_not_intro rfl)]
  by_cases struck : events[index] = .tombstone
  · rw [decide_eq_false (not_not_intro struck), if_pos struck]
    rfl
  · have positive := counted struck
    rw [decide_eq_true struck, if_neg struck]
    exact Nat.sub_add_cancel positive

/-- Once an event is struck out there are fewer to go on with, or it had no parent. -/
theorem standing_set_lt {events : List Event} {index : Nat} {kind : Kind} {parent? : Option Nat}
    (found : events[index]? = some (.start kind parent?)) :
    2 * standing (events.set index .tombstone) + parent?.toList.length < 2 * standing events + 1 := by
  have fewer := standing_set found
  cases parent? with
  | none =>
    rw [Option.toList_none, List.length_nil]
    omega
  | some distance =>
    have stood : Event.start kind (some distance) ≠ .tombstone := by simp [Event.tombstone]
    rw [if_neg stood] at fewer
    rw [Option.toList_some, List.length_singleton]
    omega

/-- The kinds of the parents of a node, the innermost first, when the node opens at an index and the
first parent `parent?` events further on. The events of the parents are struck out. -/
def parents (events : List Event) (index : Nat) (parent? : Option Nat) :
    ExceptT Fault Option (List Kind × List Event) :=
  match parent? with
  | none => return ([], events)
  | some distance =>
    match _ : events[index + distance]? with
    | some (.start kind parent?) => do
      let (kinds, events) ←
        parents (events.set (index + distance) .tombstone) (index + distance) parent?
      return (if kind = .tombstone then kinds else kind :: kinds, events)
    | _ => throw .notStart
termination_by 2 * standing events + parent?.toList.length
decreasing_by exact standing_set_lt ‹_›

/-- The calls that a number of events make, one event after the other. -/
def callsUpTo : Nat → List Event → ExceptT Fault Option (List SourceCall)
  | 0, _ | _, [] => return []
  | count + 1, .start kind parent? :: behind =>
    if kind = .tombstone then callsUpTo count behind
    else do
      let (kinds, events) ← parents (.tombstone :: behind) 0 parent?
      let more ← callsUpTo count events.tail
      return (kind :: kinds).reverse.map .start ++ more
  | count + 1, .finish :: behind => do
    let more ← callsUpTo count behind
    return .finish :: more
  | count + 1, .token placed :: behind => do
    let more ← callsUpTo count behind
    return .token placed.raw :: more

/-- The calls that events make, from the first event on. -/
def calls (events : List Event) : ExceptT Fault Option (List SourceCall) :=
  callsUpTo events.length events

/-- The tree that events describe over a text. -/
def build (text : List Char) (events : List Event) : ExceptT Fault Option (Tree Slice) := do
  let calls ← calls events
  match SourceCall.assemble text calls with
  | .ok tree => return tree
  | .error reason => throw (.assembly reason)

/-- The parser of a text where it has read all of it, if its markers tell a number of positions
apart. -/
def written (positions : Nat) (text : List Char) : ExceptT Fault Option Parser := do
  let (_, parser) ← modulePart.run (.ofText positions text)
  return parser

/-- Reads a document with markers that tell a number of positions apart: its tree and what is wrong
with it. -/
def parseWithin (positions : Nat) (text : List Char) :
    ExceptT Fault Option (Tree Slice × List Diagnostic) := do
  let parser ← written positions text
  if parser.markers = 0 then
    let tree ← build text parser.events
    return (tree, parser.diagnostics)
  else throw .openMarker

/-- Reads a document with markers that hold any position. -/
def parse : List Char → ExceptT Fault Option (Tree Slice × List Diagnostic) := parseWithin 0

/-- Reads a document with markers of 32 bits. -/
def parse32 : List Char → ExceptT Fault Option (Tree Slice × List Diagnostic) :=
  parseWithin UInt32.size

end Events

end ServiceAnnotator
