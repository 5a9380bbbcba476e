import ServiceAnnotator.Events.Build
import ServiceAnnotator.Proofs.Syntax.Layout
import ServiceAnnotator.Proofs.Text.Tiling
import ServiceAnnotator.Proofs.Tree.Leaves
import ServiceAnnotator.Proofs.Tree.Linearization
import ServiceAnnotator.Syntax.StoredTrivia

/-!
# Assembly gives back the tree

Assembly reads the calls that describe a tree back into the tree. The tokens of a text that is cut
into tokens without a gap all lie in the text, so each of them can be cut out again.
-/

namespace ServiceAnnotator

/-- A token that is given by its place in a text: the lengths of the trivia in front, its kind, its
significant span, and the lengths of the trivia behind. -/
abbrev RawToken := List (PieceKind × Nat) × Kind × Span × List (PieceKind × Nat)

/-- The token as it is cut out of its text: the lengths of its trivia and its whole text. -/
def Token.slice (token : Token) : Slice :=
  ⟨token.leading.map fun piece => (piece.kind, Text.byteLength piece.text), token.kind, token.text,
    token.trailing.map fun piece => (piece.kind, Text.byteLength piece.text)⟩

theorem Slice.lengthOf_map (trivia : Trivia) :
    lengthOf (trivia.map fun piece => (piece.kind, Text.byteLength piece.text)) = trivia.byteLength :=
  lengthOf_measure trivia

namespace SourceCall

/-- A token that lies in a text is cut out of the text. -/
theorem cut_token (front : List Char) (token : Token) (behind : List Char) :
    cut (front ++ (token.text ++ behind)) (.token (PlacedToken.raw ⟨Text.byteLength front, token⟩)) =
      .ok (.token token.slice) := by
  have start : Text.byteLength front + token.leading.byteLength - token.leading.byteLength =
      Text.byteLength front := Nat.add_sub_cancel ..
  have stop : Text.byteLength front + token.leading.byteLength + Text.byteLength token.lexeme +
      token.trailing.byteLength = Text.byteLength front + Text.byteLength token.text := by
    simp only [Token.text, Text.byteLength_append, Trivia.byteLength]
    omega
  have ordered : Text.byteLength front + token.leading.byteLength ≤
      Text.byteLength front + token.leading.byteLength + Text.byteLength token.lexeme ∧
      token.leading.byteLength ≤ Text.byteLength front + token.leading.byteLength :=
    ⟨Nat.le_add_right .., Nat.le_add_left ..⟩
  simp only [cut, PlacedToken.raw, PlacedToken.lexemeSpan, Token.lexemeSpan, Span.ofLength,
    Slice.cut?, Slice.lengthOf_map, if_pos ordered, start, stop, Text.slice?_append]
  rfl

/-- Whether a token is cut out of a text as it is. -/
def LiesIn (cs : List Char) (placed : PlacedToken) : Prop :=
  cut cs (.token placed.raw) = .ok (.token placed.token.slice)

/-- Tokens that follow each other in a text all lie in the text. -/
theorem liesIn_sequence (front : List Char) (tokens : List Token) (behind : List Char) :
    ∀ placed ∈ PlacedToken.sequence (Text.byteLength front) tokens,
      LiesIn (front ++ (tokens.flatMap Token.text ++ behind)) placed := by
  induction tokens generalizing front with
  | nil =>
    intro placed found
    cases found
  | cons token tokens ih =>
    intro placed found
    have further := ih (front ++ token.text)
    rw [Text.byteLength_append, List.append_assoc] at further
    rw [List.flatMap_cons, List.append_assoc]
    cases found with
    | head => exact cut_token ..
    | tail _ behindFirst => exact further placed behindFirst

/-- Assembly over a text goes on by one call. -/
def step (cs : List Char) (state : Assembly Slice) (call : SourceCall) :
    Except AssemblyError (Assembly Slice) := do
  let call ← cut cs call
  Assembly.step state call

section

variable {α : Type} {cs : List Char} (raw : α → RawToken) (slice : α → Slice) {made : List (Call α)}
  (cuts : ∀ item, Call.token item ∈ made → cut cs (.token (raw item)) = .ok (.token (slice item)))

include cuts

/-- Tokens that can all be cut out of the text might as well be cut out before. -/
theorem foldlM_step_map (state : Assembly Slice) :
    (made.map (Call.map raw)).foldlM (step cs) state =
      (made.map (Call.map slice)).foldlM Assembly.step state := by
  induction made generalizing state with
  | nil => rfl
  | cons call made ih =>
    have isCut : cut cs (call.map raw) = .ok (call.map slice) := by
      cases call with
      | start kind => rfl
      | token item => exact cuts item List.mem_cons_self
      | finish => rfl
    have steps : step cs state (call.map raw) = state.step (call.map slice) := by
      rw [step, isCut]
      rfl
    rw [List.map_cons, List.map_cons, List.foldlM_cons, List.foldlM_cons, steps]
    cases state.step (call.map slice) with
    | error reason => rfl
    | ok next => exact ih (fun item inside => cuts item (List.mem_cons_of_mem _ inside)) next

/-- Assembly over the text is assembly without it, and the tokens are then cut out. -/
theorem assemble_map :
    assemble cs (made.map (Call.map raw)) = (Assembly.run made).map (Tree.map slice) := by
  have folded := foldlM_step_map raw slice cuts Assembly.empty
  rw [← Assembly.run_map, Assembly.run, ← folded]
  rfl

end

/-- The calls of a tree of tokens that lie in a text assemble the tree. -/
theorem assemble_calls {cs : List Char} (kind : Kind) (children : List (Tree PlacedToken))
    (lie : ∀ placed ∈ Tree.leavesOf children, LiesIn cs placed) :
    assemble cs ((Tree.node kind children).map PlacedToken.raw).calls =
      .ok ((Tree.node kind children).map fun placed => placed.token.slice) := by
  have cuts : ∀ placed, Call.token placed ∈ (Tree.node kind children).calls →
      cut cs (.token placed.raw) = .ok (.token placed.token.slice) := by
    intro placed isCall
    exact lie placed ((Tree.node kind children).token_mem_calls_iff.mp isCall)
  rw [Tree.calls_map, assemble_map PlacedToken.raw (fun placed => placed.token.slice) cuts,
    Assembly.run_eq_iff.mpr (.tree rfl)]
  rfl

end SourceCall

end ServiceAnnotator
