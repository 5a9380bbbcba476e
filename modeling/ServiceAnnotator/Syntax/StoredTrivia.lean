import ServiceAnnotator.Syntax.Tree.Assembly

/-!
# Stored trivia

A token stores the kind and the length of each piece of its trivia, and the length of the whole run
once more. For a token that no text was read into, a text of blanks and line breaks is cut into
pieces in one pass, character by character.
-/

namespace ServiceAnnotator

/-- The kind of a piece and the number of its bytes. -/
def Piece.measure (piece : Piece) : PieceKind × Nat := (piece.kind, Text.byteLength piece.text)

theorem Slice.lengthOf_measure (trivia : Trivia) :
    lengthOf (trivia.map Piece.measure) = trivia.byteLength := by
  induction trivia with
  | nil => rfl
  | cons piece trivia ih =>
    rw [List.map_cons, Piece.measure, lengthOf, ih, Trivia.byteLength, Trivia.byteLength,
      Trivia.text_cons, Text.byteLength_append]

/-- A run of trivia without its text: the number of bytes of the run and its pieces. Of an empty run
nothing is stored. -/
inductive StoredTrivia where
  | empty
  | run (length : Nat) (pieces : List (PieceKind × Nat))
  deriving DecidableEq, Repr

namespace StoredTrivia

/-- The run of the given pieces. -/
def make : List (PieceKind × Nat) → StoredTrivia
  | [] => .empty
  | piece :: pieces => .run (Slice.lengthOf (piece :: pieces)) (piece :: pieces)

/-- What is stored of a run of trivia. -/
def ofTrivia (trivia : Trivia) : StoredTrivia := make (trivia.map Piece.measure)

/-- Number of bytes of the run. -/
def length : StoredTrivia → Nat
  | .empty => 0
  | .run length _ => length

/-- Whether the run has no piece. -/
def isEmpty : StoredTrivia → Bool
  | .empty => true
  | .run _ _ => false

/-! ## Layout in one pass -/

/-- The pieces of a text up to some character, the last one first, and whether that character is a
carriage return. -/
structure Pass where
  pieces : List (PieceKind × Nat)
  afterReturn : Bool
  deriving DecidableEq, Repr

namespace Pass

/-- Nothing read yet. -/
def start : Pass := ⟨[], false⟩

/-- The kind of the piece that a character opens. -/
def kindOf (c : Char) : PieceKind := if c = '\n' ∨ c = '\r' then .newline else .whitespace

/-- Whether a character joins a piece in front of it: a line feed joins a carriage return, and a
blank joins blanks. -/
def joins (kind : PieceKind) (afterReturn : Bool) (c : Char) : Bool :=
  if c = '\n' then afterReturn else decide (c ≠ '\r' ∧ kind = .whitespace)

/-- The pass goes on by one character. -/
def step (pass : Pass) (c : Char) : Pass where
  pieces :=
    match pass.pieces with
    | [] => [(kindOf c, c.utf8Size)]
    | (kind, length) :: before =>
      if joins kind pass.afterReturn c then (kind, length + c.utf8Size) :: before
      else (kindOf c, c.utf8Size) :: (kind, length) :: before
  afterReturn := c = '\r'

end Pass

/-- What is stored of a text of blanks and line breaks. -/
def layout (cs : List Char) : StoredTrivia := make (cs.foldl Pass.step Pass.start).pieces.reverse

end StoredTrivia

end ServiceAnnotator
