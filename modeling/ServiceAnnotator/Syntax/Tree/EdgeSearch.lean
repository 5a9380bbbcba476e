import ServiceAnnotator.Syntax.Tree.Assembly
import ServiceAnnotator.Syntax.Tree.Measured

/-!
# Search for an edge token

The first and the last token of a node are searched for along one path, which grows by an index on
the way into a child and shrinks again on the way out of a child without tokens. A token at an edge
is changed at the path that the search leaves behind, and every node around it is made anew.
-/

namespace ServiceAnnotator

/-- An end of a tree. -/
inductive Edge where
  | first
  | last
  deriving DecidableEq, Repr

namespace Measured

/-- A search within the child at an index: the path goes on to this child, and back if there is
nothing to be found. -/
def within (index : Nat) (search : StateM (List Nat) Bool) : StateM (List Nat) Bool := do
  modify (· ++ [index])
  if ← search then
    return true
  modify List.dropLast
  return false

mutual

/-- Searches an element for its token at an edge; the path goes on to the token if there is one. -/
def search (edge : Edge) : Measured → StateM (List Nat) Bool
  | .leaf _ => pure true
  | .node _ _ children => searchFrom edge 0 children

/-- Searches the children of a node from an index on, beginning at the edge. -/
def searchFrom (edge : Edge) (index : Nat) : List Measured → StateM (List Nat) Bool
  | [] => pure false
  | element :: elements =>
    match edge with
    | .first => within index (search edge element) <||> searchFrom edge (index + 1) elements
    | .last => searchFrom edge (index + 1) elements <||> within index (search edge element)

end

/-- The path to the token at an edge. -/
def edgePath? (edge : Edge) (element : Measured) : Option (List Nat) :=
  let (found, path) := (search edge element).run []
  if found then some path else none

/-- The element with the token at a path changed; a token that stays as it is changes nothing. -/
def mapTokenAt (element : Measured) (path : List Nat) (f : Token → Token) :
    Except EditError Measured :=
  match element.elementAt? path with
  | some (.leaf token) =>
    if f token = token then .ok element else element.replaceAt path (.leaf (f token))
  | _ => .ok element

/-- The element with its token at an edge changed; without tokens it stays as it is. -/
def mapEdge (edge : Edge) (f : Token → Token) (element : Measured) : Except EditError Measured :=
  match element.edgePath? edge with
  | some path => element.mapTokenAt path f
  | none => .ok element

/-- The element without the trivia in front of its first token and behind its last token. -/
def trimmed (element : Measured) : Except EditError Measured := do
  let bare ← element.mapEdge .first Token.withoutLeading
  bare.mapEdge .last Token.withoutTrailing

end Measured

/-! ## Trivia cut off a token -/

namespace Slice

/-- The token without the trivia in front, which is cut off its text by its length. -/
def withoutLeading? (slice : Slice) : Option Slice :=
  if slice.leading = [] then some slice
  else do
    let (_, lexeme, trailing) ← slice.parts?
    pure ⟨[], slice.kind, lexeme ++ trailing, slice.trailing⟩

/-- The token without the trivia behind, which is cut off its text by its length. -/
def withoutTrailing? (slice : Slice) : Option Slice :=
  if slice.trailing = [] then some slice
  else do
    let (leading, lexeme, _) ← slice.parts?
    pure ⟨slice.leading, slice.kind, leading ++ lexeme, []⟩

end Slice

end ServiceAnnotator
