import ServiceAnnotator.Proofs.Grammar.Accepts.Metadata
import ServiceAnnotator.Proofs.Grammar.Frame.Declaration

/-!
# Declarations and their languages

The rules of imports, services and flat declarations accept the languages of these constructs.
-/

open scoped Computability

namespace ServiceAnnotator.Grammar

open Phrase (EndsBehind EndsFlat Leads StartsFlat StartsWith StopsRun flat flatStart leads_any name
  optional path run startsWith_token token weight)

variable {before : Kind → Prop}

/-! ## Imports -/

theorem accepts_importDeclaration (keyword : Kind) :
    Accepts (importDeclaration keyword) (run [.semicolon, .importKw] * token .semicolon) before := by
  let path (tokens : List Kind) : Parsed Kind :=
    if runLength (.ofList [.semicolon, .importKw]) 0 tokens = 0 then
      .problem .expectedModuleName tokens
    else Parsed.tokens (runLength (.ofList [.semicolon, .importKw]) 0 tokens) tokens
  have accepts : Accepts path (run [.semicolon, .importKw]) (StopsRun [.semicolon, .importKw]) := by
    refine accepts_run (by decide) fun tokens rest => ?_
    rw [Parsed.clean_ite]
    simp
  refine (accepts.andThen (accepts_expect (by decide)) ?_).congr fun _ _ => Iff.rfl
  refine (startsWith_token .semicolon).leads ?_
  rintro _ rfl
  exact .inl (by decide)

/-! ## Services -/

theorem accepts_serviceType :
    Accepts serviceType (optional name) fun kind => kind ≠ .colon ∧ kind ≠ .identifier := by
  refine (accepts_nameReference (.ofList [.onKw, .leftBrace])).optional
    ((startsWith_token .identifier).mul _) (fun _ => And.left) (fun _ => And.right) ?_
  intro tokens rest
  rw [serviceType, Parsed.clean_ite]
  simp

/-- Kinds in front of which a resource path ends. -/
def EndsPath (kind : Kind) : Prop := kind ≠ .slash ∧ kind ≠ .identifier

/-- A slash and the identifier behind it, if there is one. -/
def segment (tokens : List Kind) : Parsed Kind :=
  (expect .slash tokens).andThen fun behind =>
    if next behind = .identifier then expect .identifier behind else .none behind

theorem accepts_segment : Accepts segment Phrase.segment (· ≠ .identifier) := by
  refine (accepts_expect (by decide)).andThen ?_ leads_any
  have accepts : Accepts (expect .identifier) (token .identifier) fun _ => True :=
    accepts_expect (by decide)
  refine accepts.optional (startsWith_token .identifier) (fun _ _ => trivial)
    (fun _ => id) ?_
  intro tokens rest
  rw [Parsed.clean_ite]
  simp

/-- A path is read segment by segment. -/
theorem clean_pathLength_iff (tokens rest : List Kind) :
    (Parsed.tokens (pathLength tokens) tokens).Clean rest ↔
      (next tokens = .slash ∧
        ((segment tokens).andThen fun behind =>
          Parsed.tokens (pathLength behind) behind).Clean rest) ∨
      (next tokens ≠ .slash ∧ tokens = rest) := by
  cases tokens with
  | nil => simp [pathLength, next]
  | cons first behind =>
    rw [pathLength_cons, kind_self]
    by_cases isSlash : first = .slash
    · subst isSlash
      rw [if_pos rfl]
      simp only [segment, Parsed.clean_andThen, Parsed.clean_ite]
      by_cases named : next behind = .identifier
      · have both : 2 + pathLength (behind.drop 1) = 1 + pathLength (behind.drop 1) + 1 := by omega
        rw [if_pos named, both]
        simp [named, -List.drop_one]
      · rw [if_neg named, Nat.add_comm]
        simp [named, -List.drop_one]
    · rw [if_neg isSlash]
      simp [isSlash]

theorem startsWith_segment : StartsWith Phrase.segment (· = .slash) :=
  (startsWith_token .slash).mul _

theorem accepts_segments :
    Accepts (fun tokens => Parsed.tokens (pathLength tokens) tokens) Phrase.segment∗ EndsPath := by
  refine (accepts_segment.imp ?_).kstar startsWith_segment (fun _ => And.left) clean_pathLength_iff
  rintro kind (rfl | ends)
  · decide
  · exact ends.2

/-- A path where a slash starts one, and a string literal elsewhere. -/
def place (tokens : List Kind) : Parsed Kind :=
  if next tokens = .slash then
    (segment tokens).andThen fun behind => Parsed.tokens (pathLength behind) behind
  else expect .stringLiteral tokens

theorem accepts_place : Accepts place (path + token .stringLiteral) EndsPath := by
  have leads : Leads Phrase.segment∗ EndsPath (· ≠ .identifier) := by
    refine .kstar startsWith_segment ?_ fun _ => And.right
    rintro _ rfl
    decide
  have onPath : Leads path EndsPath (· = .slash) :=
    (startsWith_segment.mul _).leads fun _ => id
  have onLiteral : Leads (token .stringLiteral) EndsPath (· ≠ .slash) := by
    refine (startsWith_token _).leads ?_
    rintro _ rfl
    decide
  exact .add (next · = .slash) (accepts_segment.andThen accepts_segments leads)
    (accepts_expect (by decide)) onPath onLiteral fun _ _ => Parsed.clean_ite _

theorem startsWith_place : StartsWith (path + token .stringLiteral) fun kind =>
    kind = .slash ∨ kind = .stringLiteral :=
  ((startsWith_segment.mul _).imp fun _ => .inl).add ((startsWith_token _).imp fun _ => .inr)

theorem accepts_attachPoint :
    Accepts attachPoint (optional (path + token .stringLiteral)) fun kind =>
      EndsPath kind ∧ kind ≠ .stringLiteral := by
  refine accepts_place.optional startsWith_place (fun _ => And.left) ?_ ?_
  · rintro kind ⟨endsPath, noLiteral⟩ (isSlash | isLiteral)
    · exact endsPath.1 isSlash
    · exact noLiteral isLiteral
  · intro tokens rest
    rw [attachPoint, place]
    by_cases isSlash : next tokens = .slash
    · rw [if_pos isSlash, if_pos isSlash, Parsed.clean_wrap, clean_pathLength_iff]
      simp [isSlash]
    · by_cases isLiteral : next tokens = .stringLiteral
      · simp [isLiteral]
      · simp [isSlash, isLiteral]

theorem accepts_listener : Accepts (expression listenerEnd) Phrase.listener
    (StopsRun [.comma, .leftBrace, .semicolon]) :=
  accepts_expression (by decide)

/-- Listeners are an expression and what stands behind a comma. -/
theorem clean_listeners_iff (tokens rest : List Kind) :
    (listeners tokens).Clean rest ↔
      ((expression listenerEnd tokens).andThen furtherListeners).Clean rest := by
  rw [listeners_eq, expression]
  split
  · simp
  · rfl

theorem accepts_furtherListeners :
    Accepts furtherListeners (token .comma * Phrase.listener)∗ (· = .leftBrace) := by
  have accepts : Accepts (fun tokens => (expect .comma tokens).andThen (expression listenerEnd))
      (token .comma * Phrase.listener) fun kind => kind = .comma ∨ kind = .leftBrace := by
    refine (accepts_expect (by decide)).andThen (accepts_listener.imp ?_) leads_any
    rintro _ (rfl | rfl)
    · exact .inl (by decide)
    · exact .inl (by decide)
  refine accepts.kstar ((startsWith_token .comma).mul _) ?_ ?_
  · rintro _ rfl
    decide
  · intro tokens rest
    rw [furtherListeners, Parsed.clean_ite]
    simp [clean_listeners_iff, and_assoc]

theorem accepts_listeners : Accepts listeners Phrase.listeners (· = .leftBrace) := by
  have leads : Leads (token .comma * Phrase.listener)∗ (· = .leftBrace)
      (StopsRun [.comma, .leftBrace, .semicolon]) := by
    refine .kstar ((startsWith_token .comma).mul _) ?_ ?_
    · rintro _ rfl
      exact .inl (by decide)
    · rintro _ rfl
      exact .inl (by decide)
  exact (accepts_listener.andThen accepts_furtherListeners leads).congr clean_listeners_iff

theorem accepts_listenerClause :
    Accepts listenerClause (token .onKw * Phrase.listeners) (· = .leftBrace) := by
  refine ((accepts_expect (by decide)).andThen accepts_listeners leads_any).congr
    fun tokens rest => ?_
  rw [listenerClause, Parsed.clean_ite]
  simp [expressionList]

theorem accepts_serviceBody : Accepts serviceBody Phrase.body before := by
  have leads : Leads (token .rightBrace) before (StopsRun []) := by
    refine (startsWith_token _).leads ?_
    rintro _ rfl
    exact .inr rfl
  refine (((accepts_expect (by decide)).andThen accepts_optionalRun leads_any).andThen
    (accepts_expect (by decide)) leads).congr fun tokens rest => ?_
  simp [serviceBody, bodyEnd, Parsed.clean_ite, and_assoc, -List.drop_one]

theorem accepts_serviceParts : Accepts serviceParts Phrase.serviceParts before := by
  have onBody : Leads Phrase.body before (· = .leftBrace) :=
    (((startsWith_token .leftBrace).mul _).mul _).leads fun _ => id
  have onClause : Leads (token .onKw * Phrase.listeners) (· = .leftBrace) (· = .onKw) :=
    ((startsWith_token .onKw).mul _).leads fun _ => id
  have onPlace : Leads (optional (path + token .stringLiteral)) (· = .onKw)
      fun kind => kind ≠ .colon ∧ kind ≠ .identifier := by
    refine .optional (startsWith_place.leads ?_) ?_
    · rintro _ (rfl | rfl)
      · decide
      · decide
    · rintro _ rfl
      decide
  have acceptsPlace : Accepts attachPoint (optional (path + token .stringLiteral)) (· = .onKw) := by
    refine accepts_attachPoint.imp ?_
    rintro _ rfl
    exact ⟨⟨by decide, by decide⟩, by decide⟩
  have acceptsHeader := (accepts_serviceType.andThen acceptsPlace onPlace).andThen
    accepts_listenerClause onClause
  exact acceptsHeader.andThen accepts_serviceBody onBody

/-! ## Declarations by their first tokens -/

theorem not_clean_serviceParts {tokens : List Kind} (isClass : next tokens = .classKw)
    (rest : List Kind) : ¬(serviceParts tokens).Clean rest := by
  simp [serviceParts, serviceHeader, serviceType, attachPoint, listenerClause, isClass]

theorem isSome_declarationKind?_iff (kind : Kind) :
    (declarationKind? kind).isSome ↔ kind ∈ flatStart := by
  cases kind <;> decide

/-- A service that turns out to be a class is a flat declaration from its first keyword on. -/
theorem clean_service_class_iff {tokens : List Kind} (isClass : next tokens = .classKw)
    (rest : List Kind) :
    (service .serviceKw tokens).2.Clean rest ↔
      ∃ front, EndsBehind (next rest) 0 front ∧ front ++ rest = .serviceKw :: tokens := by
  rw [service_eq, if_pos isClass, Prod.map_snd, Parsed.clean_cons, clean_plainRun_iff,
    exists_endsBehind_cons]
  simp [EndsFlat, weight]

theorem clean_declaration_iff (tokens rest : List Kind) :
    (declaration tokens).2.Clean rest ↔
      ((expect .serviceKw tokens).andThen serviceParts).Clean rest ∨
        (StartsFlat tokens ∧ ∃ front, EndsBehind (next rest) 0 front ∧ front ++ rest = tokens) := by
  cases tokens with
  | nil => simp [declaration, StartsFlat, next]
  | cons first behind =>
    rw [declaration, kind_self]
    by_cases isService : first = .serviceKw
    · subst isService
      rw [if_pos rfl]
      by_cases isClass : next behind = .classKw
      · rw [clean_service_class_iff isClass]
        simp [StartsFlat, isClass, not_clean_serviceParts isClass]
      · simp [service_eq, isClass, StartsFlat, flatStart]
    · rw [if_neg isService]
      have starts := isSome_declarationKind?_iff first
      cases found : declarationKind? first with
      | some kind =>
        rw [found] at starts
        simp [clean_plainRun_iff, isService, StartsFlat, starts.mp rfl]
      | none =>
        rw [found] at starts
        simp [isService, StartsFlat, ← starts]

/-- The first tokens of a flat declaration tell that it is one. -/
theorem startsFlat_append_iff {behind : Kind} {front : List Kind} (ends : EndsBehind behind 0 front)
    (rest : List Kind) : StartsFlat (front ++ rest) ↔ StartsFlat front := by
  match front with
  | [] => cases ends
  | [last] =>
    obtain ⟨⟨-, rfl⟩ | ⟨zero, -⟩, -⟩ | ⟨-, after, -, nothing⟩ := ends
    · simp [StartsFlat, flatStart]
    · cases zero
    · cases nothing
  | _ :: _ :: _ => exact Iff.rfl

theorem accepts_declaration (behind : Kind) :
    Accepts (fun tokens => (declaration tokens).2)
      (token .serviceKw * Phrase.serviceParts + flat behind) (· = behind) := by
  rintro tokens rest rfl
  have accepts : Accepts (fun tokens => (expect .serviceKw tokens).andThen serviceParts)
      (token .serviceKw * Phrase.serviceParts) fun _ => True :=
    (accepts_expect (by decide)).andThen accepts_serviceParts leads_any
  rw [clean_declaration_iff, accepts tokens rest trivial]
  constructor
  · rintro (⟨front, isService, split⟩ | ⟨starts, front, ends, rfl⟩)
    · exact ⟨front, .inl isService, split⟩
    · have isFlat := (Phrase.isFlat_iff _ _).mpr ends
      exact ⟨front, .inr ⟨(startsFlat_append_iff ends rest).mp starts, isFlat⟩, rfl⟩
  · rintro ⟨front, isService | ⟨starts, isFlat⟩, rfl⟩
    · exact .inl ⟨front, isService, rfl⟩
    · have ends := (Phrase.isFlat_iff _ _).mp isFlat
      exact .inr ⟨(startsFlat_append_iff ends rest).mpr starts, front, ends, rfl⟩

end ServiceAnnotator.Grammar
