import ServiceAnnotator.Grammar.Metadata

/-!
# Declarations

Imports and service headers are taken apart. Every other declaration is a run of tokens that ends
behind a semicolon outside all brackets, or behind a closing brace that the next declaration may
follow.
-/

namespace ServiceAnnotator.Grammar

variable {α : Type} [Kinded α]

/-- Kinds that the type of a module variable can start with, keywords aside. -/
def variableStart : KindSet := .ofList [.identifier, .leftBracket, .leftParen]

/-- An import: a run of tokens up to a semicolon, which the next import cuts short. -/
def importDeclaration (keyword : α) (tokens : List α) : Parsed α :=
  let length := runLength (.ofList [.semicolon, .importKw]) 0 tokens
  let path :=
    if length = 0 then .problem .expectedModuleName tokens else Parsed.tokens length tokens
  ((path.andThen (expect .semicolon)).cons (.leaf keyword)).wrap .importDeclaration

theorem length_rest_importDeclaration_le (keyword : α) (tokens : List α) :
    (importDeclaration keyword tokens).rest.length ≤ tokens.length := by
  simp only [importDeclaration, Parsed.rest_wrap, Parsed.rest_cons, Parsed.rest_andThen]
  refine Nat.le_trans (length_rest_expect_le ..) ?_
  split <;> simp

/-- Whether a declaration may end in front of a token of this kind. -/
def endsDeclaration (kind : Kind) : Bool :=
  kind == .endOfFile || kind == .importKw || variableStart.contains kind || kind.isMemberStart

/-- The rest of a declaration that is kept as it is, inside `depth` brackets, and its kind.
A variable turns out to be a class at the keyword of a class outside all brackets. -/
def plainRun (kind : Kind) (depth : Nat) : List α → Kind × Parsed α
  | [] => (kind, .problem .unexpectedEnd [])
  | token :: tokens =>
    let next := next tokens
    if Kinded.kind token = .semicolon ∧ depth = 0 then (kind, ⟨[.leaf token], [], tokens⟩)
    else if Kinded.kind token = .classKw ∧ depth = 0 ∧ kind = .moduleVarDeclaration then
      let (kind, parsed) := plainRun .classDefinition depth tokens
      (kind, parsed.cons (.leaf token))
    else
      match bracket (Kinded.kind token) with
      | .opens =>
        let (kind, parsed) := plainRun kind (depth + 1) tokens
        (kind, parsed.cons (.leaf token))
      | .closes =>
        if depth = 0 then
          let (kind, parsed) := plainRun kind 0 tokens
          (kind, (parsed.cons (.node .error [.leaf token])).report .unmatchedCloser
            (tokens.length + 1))
        else if Kinded.kind token = .rightBrace ∧ depth = 1 ∧ endsDeclaration next then
          (kind, ⟨[.leaf token], [], tokens⟩)
        else
          let (kind, parsed) := plainRun kind (depth - 1) tokens
          (kind, parsed.cons (.leaf token))
      | .neither =>
        let (kind, parsed) := plainRun kind depth tokens
        (kind, parsed.cons (.leaf token))

/-- A run takes its first token, unless nothing is left. -/
theorem length_rest_plainRun_le (kind : Kind) (depth : Nat) (tokens : List α) :
    (plainRun kind depth tokens).2.rest.length ≤ tokens.length - 1 := by
  fun_induction plainRun kind depth tokens <;> simp_all <;> omega

/-- Number of tokens of a resource path: slashes, each with an optional name behind it. -/
def pathLength : List α → Nat
  | [] => 0
  | [slash] => if Kinded.kind slash = .slash then 1 else 0
  | slash :: name :: tokens =>
    if Kinded.kind slash = .slash then
      if Kinded.kind name = .identifier then 2 + pathLength tokens
      else 1 + pathLength (name :: tokens)
    else 0

/-- Where a service is attached: a resource path, a string literal, or nothing. -/
def attachPoint (tokens : List α) : Parsed α :=
  if next tokens = .slash then
    (Parsed.tokens (pathLength tokens) tokens).wrap .absoluteResourcePath
  else if next tokens = .stringLiteral then Parsed.tokens 1 tokens
  else .none tokens

theorem length_rest_attachPoint_le (tokens : List α) :
    (attachPoint tokens).rest.length ≤ tokens.length := by
  unfold attachPoint
  split
  · simp
  · split <;> simp

/-- The type of a service, if it has one. -/
def serviceType (tokens : List α) : Parsed α :=
  if next tokens = .identifier then nameReference (.ofList [.onKw, .leftBrace]) tokens
  else .none tokens

theorem length_rest_serviceType_le (tokens : List α) :
    (serviceType tokens).rest.length ≤ tokens.length := by
  unfold serviceType
  split
  · exact length_rest_nameReference_le ..
  · simp

/-- The keyword `on` and the listeners behind it. -/
def listenerClause (tokens : List α) : Parsed α :=
  if next tokens = .onKw then (Parsed.tokens 1 tokens).andThen expressionList
  else .problem (.expected .onKw) tokens

theorem length_rest_listenerClause_le (tokens : List α) :
    (listenerClause tokens).rest.length ≤ tokens.length := by
  unfold listenerClause
  split
  · exact Nat.le_trans (length_rest_listeners_le _) (by simp)
  · simp

/-- The brace that closes the body of a service. -/
def bodyEnd (tokens : List α) : Parsed α :=
  if next tokens = .rightBrace then Parsed.tokens 1 tokens
  else .problem .unclosedServiceBody tokens

/-- The body of a service, a run of tokens in braces. -/
def serviceBody (tokens : List α) : Parsed α :=
  if next tokens = .leftBrace then
    let inner := runLength .empty 0 (tokens.drop 1)
    ((Parsed.tokens (1 + inner) tokens).andThen bodyEnd).wrap .serviceBody
  else .problem .expectedServiceBody tokens

theorem length_rest_serviceBody_le (tokens : List α) :
    (serviceBody tokens).rest.length ≤ tokens.length := by
  unfold serviceBody
  split
  · simp only [Parsed.rest_wrap, Parsed.rest_andThen, bodyEnd]
    split <;> simp
  · simp

/-- A service behind its keyword: an optional type, an optional attach point, listeners and a body.
The keyword of a class makes it a class instead. -/
def service (keyword : α) (tokens : List α) : Kind × Parsed α :=
  if next tokens = .classKw then
    let (kind, parsed) := plainRun .classDefinition 0 tokens
    (kind, parsed.cons (.leaf keyword))
  else
    let header := ((serviceType tokens).andThen attachPoint).andThen listenerClause
    (.serviceDeclaration, (header.andThen serviceBody).cons (.leaf keyword))

theorem length_rest_service_le (keyword : α) (tokens : List α) :
    (service keyword tokens).2.rest.length ≤ tokens.length := by
  unfold service
  split
  · have := length_rest_plainRun_le .classDefinition 0 tokens
    simp only [Parsed.rest_cons]
    omega
  · simp only [Parsed.rest_cons, Parsed.rest_andThen]
    exact Nat.le_trans (length_rest_serviceBody_le _)
      (Nat.le_trans (length_rest_listenerClause_le _)
        (Nat.le_trans (length_rest_attachPoint_le _) (length_rest_serviceType_le _)))

/-- What the keyword of a declaration makes of it, services aside. -/
def declarationKind? : Kind → Option Kind
  | .functionKw => some .functionDefinition
  | .listenerKw => some .listenerDeclaration
  | .typeKw => some .typeDefinition
  | .constKw => some .constDeclaration
  | .classKw => some .classDefinition
  | .enumKw => some .enumDeclaration
  | .annotationKw => some .annotationDeclaration
  | kind => if variableStart.contains kind then some .moduleVarDeclaration else none

/-- No keyword starts a declaration of the kind that marks a node as void. -/
theorem declarationKind?_ne_tombstone (kind : Kind) : declarationKind? kind ≠ some .tombstone := by
  cases kind <;> decide

/-- A declaration behind its metadata and qualifiers, and its kind. -/
def declaration (tokens : List α) : Kind × Parsed α :=
  match tokens with
  | [] => (.error, .problem .expectedDeclaration [])
  | first :: rest =>
    if Kinded.kind first = .serviceKw then service first rest
    else
      match declarationKind? (Kinded.kind first) with
      | some kind => plainRun kind 0 (first :: rest)
      | none => (.error, .problem .expectedDeclaration (first :: rest))

theorem length_rest_declaration_le (tokens : List α) :
    (declaration tokens).2.rest.length ≤ tokens.length := by
  unfold declaration
  split
  · simp
  · split
    · exact Nat.le_succ_of_le (length_rest_service_le ..)
    · split
      · exact Nat.le_trans (length_rest_plainRun_le ..) (Nat.sub_le ..)
      · simp

/-- A declaration takes the keyword or the type that it starts with. -/
theorem length_rest_declaration_lt {first : α} {rest : List α}
    (starts : Kinded.kind first = .serviceKw ∨ (declarationKind? (Kinded.kind first)).isSome) :
    (declaration (first :: rest)).2.rest.length < (first :: rest).length := by
  simp only [declaration, List.length_cons]
  split
  · exact Nat.lt_succ_of_le (length_rest_service_le ..)
  · split
    · rename_i kind _
      have := length_rest_plainRun_le kind 0 (first :: rest)
      simp only [List.length_cons] at this
      omega
    · simp_all

/-- A declaration with its metadata and qualifiers. -/
def member (tokens : List α) : Parsed α :=
  let front := (metadata tokens).andThen fun rest => Parsed.tokens (countIn qualifiers rest) rest
  let (kind, behind) := declaration front.rest
  (front.andThen fun _ => behind).wrap kind

end ServiceAnnotator.Grammar
