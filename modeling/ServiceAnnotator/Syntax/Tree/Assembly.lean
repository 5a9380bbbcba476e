import ServiceAnnotator.Syntax.Tree.Basic

/-!
# Assembly of a tree from calls

A tree can be given as a sequence of calls: a node is opened, its children follow, and it is closed.
Assembly reads such a sequence back. Its tokens are cut out of a text by byte positions, so a call
may name a range that the text does not have.
-/

namespace ServiceAnnotator

/-- A token given by its widened text and the lengths of its trivia, in bytes. -/
structure Slice where
  leading : List (PieceKind × Nat)
  kind : Kind
  text : List Char
  trailing : List (PieceKind × Nat)
  deriving DecidableEq, Repr

instance : Kinded Slice where
  kind := Slice.kind

namespace Slice

/-- Number of bytes of a run of trivia. -/
def lengthOf : List (PieceKind × Nat) → Nat
  | [] => 0
  | (_, length) :: pieces => length + lengthOf pieces

/-- Cuts the token with the given significant span out of a text; the trivia lengths widen the span
to both sides. -/
def cut? (cs : List Char) (leading : List (PieceKind × Nat)) (kind : Kind) (lexeme : Span)
    (trailing : List (PieceKind × Nat)) : Option Slice :=
  if lexeme.start ≤ lexeme.stop ∧ lengthOf leading ≤ lexeme.start then do
    let text ← Text.slice? (lexeme.start - lengthOf leading) (lexeme.stop + lengthOf trailing) cs
    pure ⟨leading, kind, text, trailing⟩
  else
    none

/-- The leading trivia, the significant text and the trailing trivia. A length that ends inside a
character leaves no such parts. -/
def parts? (slice : Slice) : Option (List Char × List Char × List Char) := do
  let total := Text.byteLength slice.text
  let stop := total - lengthOf slice.trailing
  let lexeme ← Text.slice? (lengthOf slice.leading) stop slice.text
  let leading ← Text.slice? 0 (lengthOf slice.leading) slice.text
  let trailing ← Text.slice? stop total slice.text
  pure (leading, lexeme, trailing)

end Slice

/-- Calls that describe a tree in the order of its text. -/
inductive Call (α : Type) where
  | start (kind : Kind)
  | token (item : α)
  | finish
  deriving DecidableEq, Repr

/-- Reasons for which calls describe no tree. -/
inductive AssemblyError where
  /-- A node is closed while none is open. -/
  | unbalancedFinish
  /-- A node is still open at the end. -/
  | unfinishedNodes
  /-- There is not exactly one element outside all nodes. -/
  | notSingleRoot
  /-- The only element outside all nodes is a token. -/
  | rootIsToken
  /-- A token does not lie in the text. -/
  | outsideText
  deriving DecidableEq, Repr

namespace AssemblyError

/-- The reason in words; a token outside the text has none of its own. -/
def message? : AssemblyError → Option String
  | .unbalancedFinish => some "unbalanced `finish_node`"
  | .unfinishedNodes => some "unfinished nodes"
  | .notSingleRoot => some "expected a single root node"
  | .rootIsToken => some "root element must be a node"
  | .outsideText => none

end AssemblyError

/-- A partly assembled tree: the open nodes, the innermost first, each with the elements that stand
in front of it, and the elements of the innermost node, the last one first. -/
structure Assembly (α : Type) where
  enclosing : List (Kind × List (Tree α))
  elements : List (Tree α)

namespace Assembly

variable {α : Type}

/-- Nothing assembled yet. -/
def empty : Assembly α := ⟨[], []⟩

/-- Assembly goes on by one call. -/
def step (state : Assembly α) : Call α → Except AssemblyError (Assembly α)
  | .start kind => .ok ⟨(kind, state.elements) :: state.enclosing, []⟩
  | .token item => .ok ⟨state.enclosing, .leaf item :: state.elements⟩
  | .finish =>
    match state.enclosing with
    | [] => .error .unbalancedFinish
    | (kind, before) :: enclosing =>
      .ok ⟨enclosing, .node kind state.elements.reverse :: before⟩

/-- The tree at the end of all calls. -/
def finish (state : Assembly α) : Except AssemblyError (Tree α) :=
  match state.enclosing, state.elements with
  | _ :: _, _ => .error .unfinishedNodes
  | [], [.node kind children] => .ok (.node kind children)
  | [], [.leaf _] => .error .rootIsToken
  | [], _ => .error .notSingleRoot

/-- Assembles the tree that a sequence of calls describes. -/
def run (calls : List (Call α)) : Except AssemblyError (Tree α) := do
  let state ← calls.foldlM step empty
  state.finish

end Assembly

namespace Tree

variable {α : Type}

mutual

/-- The calls that describe a tree. -/
def calls : Tree α → List (Call α)
  | .leaf item => [.token item]
  | .node kind children => .start kind :: callsOf children ++ [.finish]

/-- The calls that describe trees that follow each other. -/
def callsOf : List (Tree α) → List (Call α)
  | [] => []
  | tree :: trees => calls tree ++ callsOf trees

end

end Tree

/-- A call whose token is still given by its place in a text. -/
abbrev SourceCall := Call (List (PieceKind × Nat) × Kind × Span × List (PieceKind × Nat))

namespace SourceCall

/-- Cuts the token of a call out of a text. -/
def cut (cs : List Char) : SourceCall → Except AssemblyError (Call Slice)
  | .start kind => .ok (.start kind)
  | .finish => .ok .finish
  | .token (leading, kind, lexeme, trailing) =>
    match Slice.cut? cs leading kind lexeme trailing with
    | some slice => .ok (.token slice)
    | none => .error .outsideText

/-- Assembles a tree over a text, call by call, so that the first call that fails decides. -/
def assemble (cs : List Char) (calls : List SourceCall) : Except AssemblyError (Tree Slice) := do
  let state ← calls.foldlM
    (fun state call => do
      let call ← cut cs call
      Assembly.step state call)
    Assembly.empty
  state.finish

end SourceCall

end ServiceAnnotator
