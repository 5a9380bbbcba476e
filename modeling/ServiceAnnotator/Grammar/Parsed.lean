import ServiceAnnotator.Grammar.Problem
import ServiceAnnotator.Syntax.KindSet
import ServiceAnnotator.Syntax.Tree.Basic

/-!
# Parsed parts of a document

Each rule of the grammar reads tokens from the front of a list. It gives the elements that they
form, the problems it met, and the tokens behind. An empty list stands for the end of the file.
-/

namespace ServiceAnnotator

/-- Elements read from the front of a list of tokens, and the tokens behind them. -/
structure Parsed (α : Type) where
  elements : List (Tree α)
  reports : List Report
  rest : List α

namespace Parsed

variable {α : Type}

/-- Nothing was read. -/
def none (tokens : List α) : Parsed α := ⟨[], [], tokens⟩

/-- Nothing was read since something is wrong with the next token. -/
def problem (problem : Problem) (tokens : List α) : Parsed α :=
  ⟨[], [⟨problem, tokens.length⟩], tokens⟩

/-- The first `count` tokens, each as an element of its own. -/
def tokens (count : Nat) (tokens : List α) : Parsed α :=
  ⟨(tokens.take count).map .leaf, [], tokens.drop count⟩

/-- Reading goes on with another rule behind what was read. -/
def andThen (first : Parsed α) (rule : List α → Parsed α) : Parsed α :=
  let second := rule first.rest
  ⟨first.elements ++ second.elements, first.reports ++ second.reports, second.rest⟩

/-- One node around everything that was read. -/
def wrap (kind : Kind) (parsed : Parsed α) : Parsed α :=
  ⟨[.node kind parsed.elements], parsed.reports, parsed.rest⟩

/-- What was read with an element in front. -/
def cons (element : Tree α) (parsed : Parsed α) : Parsed α :=
  { parsed with elements := element :: parsed.elements }

/-- What was read with an earlier report. -/
def report (problem : Problem) (ahead : Nat) (parsed : Parsed α) : Parsed α :=
  { parsed with reports := ⟨problem, ahead⟩ :: parsed.reports }

@[simp] theorem rest_none (tokens : List α) : (none tokens).rest = tokens := rfl

@[simp] theorem rest_problem (p : Problem) (tokens : List α) :
    (problem p tokens).rest = tokens := rfl

@[simp] theorem rest_tokens (count : Nat) (items : List α) :
    (tokens count items).rest = items.drop count := rfl

@[simp] theorem rest_andThen (first : Parsed α) (rule : List α → Parsed α) :
    (first.andThen rule).rest = (rule first.rest).rest := rfl

@[simp] theorem rest_wrap (kind : Kind) (parsed : Parsed α) :
    (parsed.wrap kind).rest = parsed.rest := rfl

@[simp] theorem rest_cons (element : Tree α) (parsed : Parsed α) :
    (parsed.cons element).rest = parsed.rest := rfl

@[simp] theorem rest_report (p : Problem) (ahead : Nat) (parsed : Parsed α) :
    (parsed.report p ahead).rest = parsed.rest := rfl

end Parsed

namespace Grammar

variable {α : Type} [Kinded α]

/-- The kind of the next token. -/
def next : List α → Kind
  | [] => .endOfFile
  | token :: _ => Kinded.kind token

/-- Number of tokens at the front whose kinds are in a set. -/
def countIn (set : KindSet) (tokens : List α) : Nat :=
  (tokens.takeWhile fun token => set.contains (Kinded.kind token)).length

/-- The next token, which has to be of the given kind. -/
def expect (kind : Kind) (tokens : List α) : Parsed α :=
  match tokens with
  | [] => .problem (.expected kind) []
  | token :: rest =>
    if Kinded.kind token = kind then ⟨[.leaf token], [], rest⟩
    else .problem (.expected kind) (token :: rest)

/-- Reports a problem and skips to the next token in a set; the tokens skipped form an error
node. -/
def recover (problem : Problem) (stop : KindSet) (tokens : List α) : Parsed α :=
  let skipped := (tokens.takeWhile fun token => !stop.contains (Kinded.kind token)).length
  let elements := if skipped = 0 then [] else [.node .error ((tokens.take skipped).map .leaf)]
  ⟨elements, [⟨problem, tokens.length⟩], tokens.drop skipped⟩

theorem length_rest_expect_le (kind : Kind) (tokens : List α) :
    (expect kind tokens).rest.length ≤ tokens.length := by
  unfold expect
  split
  · simp
  · split <;> simp

theorem length_rest_recover_le (problem : Problem) (stop : KindSet) (tokens : List α) :
    (recover problem stop tokens).rest.length ≤ tokens.length := by
  simp [recover]

/-- What a token does to the depth of brackets. -/
inductive Bracket where
  | opens
  | closes
  | neither
  deriving DecidableEq

/-- Brackets of all three shapes count alike. -/
def bracket : Kind → Bracket
  | .leftParen | .leftBrace | .leftBracket => .opens
  | .rightParen | .rightBrace | .rightBracket => .closes
  | _ => .neither

/-- Number of tokens up to the first token of a set that stands outside all brackets, or up to a
bracket that closes none of them. The count starts inside `depth` brackets. -/
def runLength (stop : KindSet) (depth : Nat) : List α → Nat
  | [] => 0
  | token :: tokens =>
    if depth = 0 ∧ stop.contains (Kinded.kind token) then 0
    else
      match bracket (Kinded.kind token) with
      | .opens => 1 + runLength stop (depth + 1) tokens
      | .closes => if depth = 0 then 0 else 1 + runLength stop (depth - 1) tokens
      | .neither => 1 + runLength stop depth tokens

/-- A name, with a module in front of a colon or without. Behind anything else reading goes on at
the next token of the recovery set. -/
def nameReference (recovery : KindSet) (tokens : List α) : Parsed α :=
  match tokens with
  | [] => recover (.expected .identifier) recovery []
  | first :: rest =>
    if Kinded.kind first = .identifier then
      if next rest = .colon then
        ((Parsed.tokens 2 (first :: rest)).andThen (expect .identifier)).wrap .qualifiedNameReference
      else
        (Parsed.tokens 1 (first :: rest)).wrap .simpleNameReference
    else
      recover (.expected .identifier) recovery (first :: rest)

theorem length_rest_nameReference_le (recovery : KindSet) (tokens : List α) :
    (nameReference recovery tokens).rest.length ≤ tokens.length := by
  unfold nameReference
  split
  · exact length_rest_recover_le ..
  · split
    · split
      · exact Nat.le_trans (length_rest_expect_le ..) (by simp; omega)
      · simp
    · exact length_rest_recover_le ..

end Grammar

end ServiceAnnotator
