import ServiceAnnotator.Diagnostic
import ServiceAnnotator.Grammar.Parsed
import ServiceAnnotator.Syntax.Scan.Tokenizer
import ServiceAnnotator.Syntax.Tree.Assembly

/-!
# Parsing by events

A parser that builds its tree only at the end writes down events while it reads: a node opens, a
token is taken, a node closes. Where a node opens its kind need not be known yet. A marker holds the
place in the list of events until the node is completed or given up, and a node that is complete may
still get a parent, which opens behind it in the list but in front of it in the tree.

None of this can be done at just any time, so each action may fail. Loops run for as long as the
tokens make them run; an action that goes round without taking a token never ends and gives no
result at all. A marker is of a fixed size. Behind as many events as it has positions, the place of
a node wraps around and the marker holds the place of another event.
-/

namespace ServiceAnnotator.Events

/-- What a parser writes down. -/
inductive Event where
  /-- A node opens. If it has got a parent later, then the parent opens `parent?` events further
  on. -/
  | start (kind : Kind) (parent? : Option Nat)
  /-- A token is taken. -/
  | token (placed : PlacedToken)
  /-- The innermost node closes. -/
  | finish
  deriving DecidableEq, Repr

/-- The event in the place of a node that is not complete, was given up or has been dealt with. -/
def Event.tombstone : Event := .start .tombstone none

/-- Reasons for which parsing stops without a tree. -/
inductive Fault where
  /-- Where a node should open, there is no such event. -/
  | notStart
  /-- A position lies in front of the events, or a parent in front of its child. -/
  | negative
  /-- A rule was entered at a token at which it must not be entered. -/
  | assertion
  /-- A marker was neither completed nor given up. -/
  | openMarker
  /-- The events do not describe a tree. -/
  | assembly (error : AssemblyError)
  deriving DecidableEq, Repr

/-- The state of a parser. -/
structure Parser where
  tokenizer : Tokenizer
  events : List Event
  diagnostics : List Diagnostic
  /-- Number of markers that are neither completed nor given up. -/
  markers : Nat
  /-- Number of positions that a marker tells apart, or 0 if it holds any position. -/
  positions : Nat

/-- What a parser does: it changes its state, or stops with a fault, or never ends. -/
abbrev Action := StateT Parser (ExceptT Fault Option)

/-- The parser of a text at its beginning, with markers that tell a number of positions apart. -/
def Parser.ofText (positions : Nat) (text : List Char) : Parser :=
  ⟨.ofText text, [], [], 0, positions⟩

/-! ## Tokens -/

/-- The kind of the next token. -/
def peekKind : Action Kind := return (← get).tokenizer.kind

/-- Writes down an event. -/
def push (event : Event) : Action Unit :=
  modify fun parser => { parser with events := parser.events ++ [event] }

/-- Takes the next token, whatever it is. -/
def take : Action Unit := do
  push (.token (← get).tokenizer.current)
  modify fun parser => { parser with tokenizer := parser.tokenizer.next }

/-- Takes the next token, unless it is the end of the file. -/
def advance : Action Unit := do
  if (← peekKind) = .endOfFile then return else take

/-- Stops unless a condition holds. -/
def assert (condition : Bool) : Action Unit :=
  if condition then pure () else throw .assertion

/-- Takes the end of the file, with the trivia at the end of the text. -/
def advanceEndOfFile : Action Unit := do
  assert ((← peekKind) == .endOfFile)
  take

/-- Takes the next token if it is of a kind, and tells whether it was. -/
def eat (kind : Kind) : Action Bool := do
  if (← peekKind) = kind then
    advance
    return true
  else
    return false

/-- Reports a problem at the next token. -/
def error (problem : Problem) : Action Unit :=
  modify fun parser => { parser with
    diagnostics := parser.diagnostics ++
      [⟨.error, problem.message, parser.tokenizer.current.lexemeSpan⟩] }

/-- Takes the next token, which has to be of the given kind. -/
def expect (kind : Kind) : Action Bool := do
  if ← eat kind then return true
  else
    error (.expected kind)
    return false

/-! ## Recursion -/

/-- An action that uses itself again, with an argument. To do so without having taken a token is to
go on for ever, and gives no result. -/
def recurring {α β : Type} (body : (α → Action β) → α → Action β) (argument : α) : Action β :=
  fun parser =>
    body (fun argument behind =>
      if behind.tokenizer.ahead < parser.tokenizer.ahead then recurring body argument behind
      else none) argument parser
termination_by parser => parser.tokenizer.ahead

/-- Takes tokens as long as their kinds satisfy a condition. -/
def advanceWhile (p : Kind → Bool) : Action Unit :=
  recurring (fun again _ => do
    if p (← peekKind) then
      advance
      again ()
    else return) ()

/-! ## Markers -/

/-- The place of a node that is not complete. -/
structure Marker where
  position : Nat

/-- The place of a complete node. -/
structure CompletedMarker where
  position : Nat

/-- Opens a node of a kind that is not known yet. Its position is cut down to the size of a
marker. -/
def start : Action Marker := do
  let parser ← get
  push .tombstone
  modify fun parser => { parser with markers := parser.markers + 1 }
  return ⟨parser.events.length % parser.positions⟩

/-- Completes the node: its kind is written into the event that opened it, and it closes. -/
def Marker.complete (marker : Marker) (kind : Kind) : Action CompletedMarker := do
  match (← get).events[marker.position]? with
  | some (.start _ parent?) =>
    modify fun parser => { parser with
      events := parser.events.set marker.position (.start kind parent?)
      markers := parser.markers - 1 }
    push .finish
    return ⟨marker.position⟩
  | _ => throw .notStart

/-- Gives up the node. Its event is dropped if it is the last one. -/
def Marker.abandon (marker : Marker) : Action Unit := do
  match (← get).events.length with
  | 0 => throw .negative
  | last + 1 =>
    modify fun parser => { parser with
      events := if marker.position = last then parser.events.dropLast else parser.events
      markers := parser.markers - 1 }

/-- Opens a node that takes a complete node as its first child. -/
def CompletedMarker.precede (completed : CompletedMarker) : Action Marker := do
  let marker ← start
  match (← get).events[completed.position]? with
  | some (.start kind _) =>
    if marker.position < completed.position then throw .negative
    else
      modify fun parser => { parser with
        events := parser.events.set completed.position
          (.start kind (some (marker.position - completed.position))) }
      return marker
  | _ => throw .notStart

/-! ## Recovery -/

/-- Reports a problem at the next token and takes it into an error node. -/
def errorAndBump (problem : Problem) : Action Unit := do
  let marker ← start
  error problem
  advance
  discard (marker.complete .error)

/-- Reports a problem and skips to the next token in a set; the tokens skipped form an error
node. -/
def errorRecover (problem : Problem) (recovery : KindSet) : Action Unit := do
  error problem
  let kind ← peekKind
  if recovery.contains kind ∨ kind = .endOfFile then return
  else
    let marker ← start
    advanceWhile fun kind => !recovery.contains kind && kind != .endOfFile
    discard (marker.complete .error)

end ServiceAnnotator.Events
