import ServiceAnnotator.Diagnostic
import ServiceAnnotator.Grammar.Declaration
import ServiceAnnotator.Syntax.Scan.Stream

/-!
# Modules

A module is a sequence of imports and declarations. Tokens that start neither form error nodes of
their own, so that every token of a text is in its tree.
-/

namespace ServiceAnnotator

namespace Grammar

variable {α : Type} [Kinded α]

/-- Kinds at which a declaration is read. -/
def startsMember (kind : Kind) : Bool := kind.isMemberStart || variableStart.contains kind

/-- Where a declaration starts, there is metadata, a qualifier, or what decides its kind. -/
theorem starts_cases (kind : Kind) (starts : startsMember kind) :
    kind = .documentationLine ∨ kind = .atSign ∨ qualifiers.contains kind ∨
      kind = .serviceKw ∨ (declarationKind? kind).isSome := by
  revert starts
  cases kind <;> decide

theorem length_rest_member_lt {first : α} {rest : List α}
    (starts : startsMember (Kinded.kind first)) :
    (member (first :: rest)).rest.length < (first :: rest).length := by
  simp only [member, Parsed.rest_wrap, Parsed.rest_andThen, Parsed.rest_tokens]
  by_cases front : Kinded.kind first = .documentationLine ∨ Kinded.kind first = .atSign
  · refine Nat.lt_of_le_of_lt (length_rest_declaration_le _) ?_
    refine Nat.lt_of_le_of_lt ?_ (length_rest_metadata_lt front)
    simp
  · rw [metadata_eq_none (fun line => front (.inl line)) (fun sign => front (.inr sign)),
      Parsed.rest_none]
    by_cases qualified : qualifiers.contains (Kinded.kind first)
    · refine Nat.lt_of_le_of_lt (length_rest_declaration_le _) ?_
      have counted : 0 < countIn qualifiers (first :: rest) := by
        rw [countIn_cons, if_pos qualified]
        omega
      simp only [List.length_drop, List.length_cons]
      omega
    · rw [countIn_cons]
      simp only [qualified, Bool.false_eq_true, ↓reduceIte, List.drop_zero]
      refine length_rest_declaration_lt ?_
      rcases starts_cases _ starts with line | sign | qualifier | decided
      · exact absurd (.inl line) front
      · exact absurd (.inr sign) front
      · exact absurd qualifier qualified
      · exact decided

/-- The imports and declarations of a module. -/
def items (tokens : List α) : Parsed α :=
  match tokens with
  | [] => .none []
  | first :: rest =>
    if Kinded.kind first = .importKw then
      let item := importDeclaration first rest
      let more := items item.rest
      item.andThen fun _ => more
    else if starts : startsMember (Kinded.kind first) then
      let item := member (first :: rest)
      let more := items item.rest
      item.andThen fun _ => more
    else
      let problem : Problem :=
        if Kinded.kind first = .semicolon then .straySemicolon else .expectedModuleLevelDeclaration
      ((items rest).cons (.node .error [.leaf first])).report problem (rest.length + 1)
termination_by tokens.length
decreasing_by
  · exact Nat.lt_succ_of_le (length_rest_importDeclaration_le ..)
  · exact length_rest_member_lt starts
  · exact Nat.lt_succ_self _

end Grammar

/-- The tree of a document and what is wrong with it. -/
structure SourceTree where
  tree : Tree Token
  stream : TokenStream
  reports : List Report

namespace SourceTree

/-- Reads a document. -/
def parse (text : List Char) : SourceTree :=
  let stream := TokenStream.scan text
  let parsed := Grammar.items stream.tokens
  { tree := .node .modulePart (parsed.elements ++ [.leaf stream.endOfFile])
    stream
    reports := parsed.reports }

/-- What is wrong, as diagnostics at the tokens concerned. -/
def problems (source : SourceTree) : List Diagnostic :=
  source.reports.map fun report =>
    let index := source.stream.tokens.length - report.ahead
    ⟨.error, report.problem.message, (source.stream.get index).lexemeSpan⟩

end SourceTree

end ServiceAnnotator
