import ServiceAnnotator.Proofs.Scan.Keyword
import ServiceAnnotator.Syntax.Scan.Tokenizer

/-!
# The tokenizer yields the tokens of the text

Step by step the tokenizer yields the tokens that scanning the whole text gives, each at its
position, and then the end of the file.
-/

namespace ServiceAnnotator

namespace Tokenizer

open TokenStream (Tiles)

/-- The tokens that a tokenizer yields first. -/
def Yields (tokenizer : Tokenizer) : List PlacedToken → Prop
  | [] => True
  | placed :: more => tokenizer.current = placed ∧ tokenizer.next.Yields more

theorem read_of_reads {token : Token} {after : List Char} (reads : token.Reads after)
    (start : Nat) : read start (token.text ++ after) = readAhead start token after := by
  obtain ⟨first, rest, lexemeEq, front, counted, behind⟩ := reads.exists_parts
  rw [read, front]
  simp only [counted, List.take_left, List.drop_left, behind, ← lexemeEq]

theorem read_of_leads {pieces : Trivia} (leads : pieces.Leads []) (start : Nat) :
    read start pieces.text = readAhead start ⟨pieces, .endOfFile, [], []⟩ [] := by
  have front := Scan.leading_eq_of_leads leads
  rw [List.append_nil] at front
  rw [read, front]

theorem yields_read {tokens : List Token} {pieces : Trivia} (tiles : Tiles tokens pieces.text)
    (leads : pieces.Leads []) (start : Nat) :
    (read start (tokens.flatMap Token.text ++ pieces.text)).Yields
      (PlacedToken.sequence start (tokens ++ [⟨pieces, .endOfFile, [], []⟩])) := by
  induction tokens generalizing start with
  | nil =>
    rw [List.flatMap_nil, List.nil_append, read_of_leads leads]
    exact ⟨rfl, trivial⟩
  | cons token tokens ih =>
    rw [List.flatMap_cons, List.append_assoc, read_of_reads tiles.1]
    exact ⟨rfl, ih tiles.2 _⟩

/-- The tokenizer of a text yields the tokens of the text and the end of the file. -/
theorem yields_ofText (text : List Char) : (ofText text).Yields (TokenStream.scan text).placed := by
  obtain ⟨pieces, leads, endEq, tiles, split⟩ := TokenStream.tiles_scan text
  have yields := yields_read tiles leads 0
  rw [← split, ← endEq] at yields
  exact yields

/-- What a tokenizer yields, by the number of steps. -/
theorem Yields.current_after {tokenizer : Tokenizer} {tokens : List PlacedToken}
    (yields : tokenizer.Yields tokens) (steps : Nat) {placed : PlacedToken}
    (found : tokens[steps]? = some placed) : (tokenizer.after steps).current = placed := by
  induction steps generalizing tokenizer tokens with
  | zero =>
    cases tokens with
    | nil => cases found
    | cons first more =>
      obtain rfl : first = placed := by simpa using found
      exact yields.1
  | succ steps ih =>
    cases tokens with
    | nil => cases found
    | cons first more => exact ih yields.2 (by simpa using found)

/-! ## The number of tokens ahead -/

variable {tokenizer : Tokenizer}

theorem ahead_of_kind_eq (ends : tokenizer.kind = .endOfFile) : tokenizer.ahead = 0 := by
  rw [ahead, if_pos ends]

/-- Each token ahead is one step. -/
theorem ahead_of_kind_ne (real : tokenizer.kind ≠ .endOfFile) :
    tokenizer.ahead = tokenizer.next.ahead + 1 := by
  rw [ahead, if_neg real]
  by_cases atEnd : tokenizer.rest = []
  · have ends : tokenizer.next.kind = .endOfFile := by
      have nothing : Trivia.Leads [] [] := Scan.piece?_nil
      rw [next, atEnd]
      exact congrArg kind (read_of_leads nothing tokenizer.position)
    rw [dif_pos atEnd, ahead_of_kind_eq ends]
  · rw [dif_neg atEnd, Nat.add_comm]

/-- The tokens ahead are those that are yielded up to the end of the file. -/
theorem Yields.ahead_eq {tokens : List PlacedToken} {stop : PlacedToken}
    (yields : tokenizer.Yields (tokens ++ [stop])) (ends : stop.token.kind = .endOfFile)
    (significant : ∀ placed ∈ tokens, placed.token.kind ≠ .endOfFile) :
    tokenizer.ahead = tokens.length := by
  induction tokens generalizing tokenizer with
  | nil => exact ahead_of_kind_eq ((congrArg (·.token.kind) yields.1).trans ends)
  | cons first more ih =>
    have real : tokenizer.kind ≠ .endOfFile := by
      rw [kind, yields.1]
      exact significant first (.head _)
    rw [ahead_of_kind_ne real, List.length_cons,
      ih yields.2 fun placed found => significant placed (.tail _ found)]

/-! ## The tokenizer of a text -/

/-- No token of a text is the end of the file, wherever the tokens are placed. -/
theorem kind_ne_endOfFile_of_mem_sequence {text : List Char} {start : Nat} {placed : PlacedToken}
    (found : placed ∈ PlacedToken.sequence start (TokenStream.scan text).tokens) :
    placed.token.kind ≠ .endOfFile := by
  have scanned := List.mem_map_of_mem (f := PlacedToken.token) found
  rw [PlacedToken.map_token_sequence] at scanned
  exact TokenStream.kind_ne_endOfFile scanned

theorem ahead_ofText (text : List Char) :
    (ofText text).ahead = (TokenStream.scan text).tokens.length := by
  have yields := yields_ofText text
  rw [TokenStream.placed, TokenStream.all, PlacedToken.sequence_append] at yields
  rw [yields.ahead_eq (TokenStream.kind_endOfFile text)
    fun _ found => kind_ne_endOfFile_of_mem_sequence found, PlacedToken.length_sequence]

/-- The end of the file is placed behind the tokens. -/
theorem length_placed (text : List Char) :
    (TokenStream.scan text).placed.length = (ofText text).ahead + 1 := by
  rw [ahead_ofText, TokenStream.placed, TokenStream.all, PlacedToken.length_sequence,
    List.length_append, List.length_singleton]

/-- Up to the end of the file each step yields the token of its number. -/
theorem current_after_ofText (text : List Char) {steps : Nat} (inside : steps ≤ (ofText text).ahead) :
    ((ofText text).after steps).current = (TokenStream.scan text).get steps := by
  have within : steps < (TokenStream.scan text).placed.length := by
    rw [length_placed]
    exact Nat.lt_succ_of_le inside
  apply (yields_ofText text).current_after
  rw [TokenStream.get, List.getD_eq_getElem?_getD, List.getElem?_eq_getElem within,
    Option.getD_some]

end Tokenizer

end ServiceAnnotator
