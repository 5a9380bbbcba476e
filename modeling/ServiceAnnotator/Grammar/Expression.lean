import ServiceAnnotator.Grammar.Parsed

/-!
# Expressions and mapping constructors

Expressions are not taken apart: an expression is the run of tokens up to the first token outside
all brackets that can end it. Only the fields of a mapping constructor are told apart.
-/

namespace ServiceAnnotator.Grammar

/-- What is left behind the first token of a rest is shorter than the whole. -/
theorem length_lt_of_drop_eq_cons {α : Type} {tokens rest : List α} {first : α} {count : Nat}
    (behind : tokens.drop count = first :: rest) : rest.length < tokens.length := by
  have same := congrArg List.length behind
  simp only [List.length_drop, List.length_cons] at same
  omega

variable {α : Type} [Kinded α]

/-- Kinds that end an expression inside a mapping constructor. -/
def fieldEnd : KindSet := .ofList [.comma, .rightBrace, .semicolon]

/-- Kinds that end a listener expression of a service; a brace opens the body. -/
def listenerEnd : KindSet := .ofList [.comma, .leftBrace, .semicolon]

/-- Kinds that a field of a mapping constructor starts with. -/
def fieldStart : KindSet := .ofList [.identifier, .stringLiteral, .ellipsis]

/-- An expression up to the first token of a set outside all brackets. -/
def expression (stop : KindSet) (tokens : List α) : Parsed α :=
  let length := runLength stop 0 tokens
  if length = 0 then .problem .expectedExpression tokens
  else (Parsed.tokens length tokens).wrap .expression

/-- Expressions separated by commas. -/
def listeners (tokens : List α) : Parsed α :=
  let length := runLength listenerEnd 0 tokens
  if length = 0 then .problem .expectedExpression tokens
  else
    let first := (Parsed.tokens length tokens).wrap .expression
    match _ : tokens.drop length with
    | [] => first
    | separator :: rest =>
      if Kinded.kind separator = .comma then
        first.andThen fun _ => (listeners rest).cons (.leaf separator)
      else first
termination_by tokens.length
decreasing_by exact length_lt_of_drop_eq_cons ‹_›

theorem length_rest_listeners_le (tokens : List α) :
    (listeners tokens).rest.length ≤ tokens.length := by
  fun_induction listeners tokens with
  | case1 => simp
  | case2 _ _ _ first => simp [first]
  | case3 _ _ _ _ _ _ behind _ ih =>
    exact Nat.le_of_lt (Nat.lt_of_le_of_lt ih (length_lt_of_drop_eq_cons behind))
  | case4 _ _ _ first => simp [first]

/-- The listener expressions of a service. -/
def expressionList (tokens : List α) : Parsed α := (listeners tokens).wrap .expressionList

theorem length_rest_expression_le (stop : KindSet) (tokens : List α) :
    (expression stop tokens).rest.length ≤ tokens.length := by
  simp only [expression]
  split <;> simp

/-- A parse that leaves at most `bound` tokens. Fields nest, so what one field leaves has to be
known to be short enough for the next one. -/
abbrev Bounded (α : Type) (bound : Nat) := { parsed : Parsed α // parsed.rest.length ≤ bound }

mutual

/-- The fields of a mapping constructor and its closing brace. -/
def fields (tokens : List α) : Bounded α tokens.length :=
  match tokens with
  | [] => ⟨expect .rightBrace [], length_rest_expect_le _ _⟩
  | first :: rest =>
    if Kinded.kind first = .rightBrace then ⟨⟨[.leaf first], [], rest⟩, Nat.le_succ _⟩
    else if Kinded.kind first = .comma then
      let ⟨more, bound⟩ := fields rest
      ⟨(more.cons (.node .error [.leaf first])).report .strayComma (rest.length + 1),
        Nat.le_succ_of_le bound⟩
    else if fieldStart.contains (Kinded.kind first) then
      let ⟨one, bound⟩ := field first rest
      let ⟨more, shorter⟩ := furtherFields one.rest
      ⟨one.andThen fun _ => more, Nat.le_succ_of_le (Nat.le_trans shorter bound)⟩
    else
      ⟨(Parsed.problem .expectedFieldName (first :: rest)).andThen (expect .rightBrace),
        length_rest_expect_le _ _⟩
termination_by (tokens.length, 0)

/-- What follows a field: a comma and further fields, which a missing comma does not end, or the
closing brace. -/
def furtherFields (tokens : List α) : Bounded α tokens.length :=
  match tokens with
  | [] => ⟨expect .rightBrace [], length_rest_expect_le _ _⟩
  | first :: rest =>
    if Kinded.kind first = .comma then
      let ⟨more, bound⟩ := fields rest
      ⟨more.cons (.leaf first), Nat.le_succ_of_le bound⟩
    else if fieldStart.contains (Kinded.kind first) then
      let ⟨more, bound⟩ := fields (first :: rest)
      ⟨more.report (.expected .comma) (rest.length + 1), bound⟩
    else
      ⟨expect .rightBrace (first :: rest), length_rest_expect_le _ _⟩
termination_by (tokens.length, 1)

/-- The field that starts with the given token: a spread of an expression, a key with a value, or a
key alone. -/
def field (first : α) (rest : List α) : Bounded α rest.length :=
  if Kinded.kind first = .ellipsis then
    ⟨((expression fieldEnd rest).cons (.leaf first)).wrap .spreadField,
      length_rest_expression_le _ _⟩
  else
    match rest with
    | [] => ⟨⟨[.node .specificField [.leaf first]], [], []⟩, Nat.le_refl _⟩
    | second :: behind =>
      if Kinded.kind second = .colon then
        let ⟨value, bound⟩ := fieldValue behind
        ⟨((value.cons (.leaf second)).cons (.leaf first)).wrap .specificField,
          Nat.le_succ_of_le bound⟩
      else ⟨⟨[.node .specificField [.leaf first]], [], second :: behind⟩, Nat.le_refl _⟩
termination_by (rest.length, 2)

/-- The value of a field: a mapping constructor where a brace opens one, else an expression. -/
def fieldValue (tokens : List α) : Bounded α tokens.length :=
  match tokens with
  | [] => ⟨expression fieldEnd [], length_rest_expression_le _ _⟩
  | first :: rest =>
    if Kinded.kind first = .leftBrace then
      let ⟨inner, bound⟩ := fields rest
      ⟨(inner.cons (.leaf first)).wrap .mappingConstructor, Nat.le_succ_of_le bound⟩
    else ⟨expression fieldEnd (first :: rest), length_rest_expression_le _ _⟩
termination_by (tokens.length, 0)

end

/-- A mapping constructor where a brace opens one, else nothing. -/
def mapping? (tokens : List α) : Parsed α :=
  match tokens with
  | [] => .none []
  | first :: rest =>
    if Kinded.kind first = .leftBrace then
      ((fields rest).val.cons (.leaf first)).wrap .mappingConstructor
    else .none (first :: rest)

theorem length_rest_mapping_le (tokens : List α) :
    (mapping? tokens).rest.length ≤ tokens.length := by
  unfold mapping?
  split
  · simp
  · split
    · have := (fields ‹List α›).property
      simp only [Parsed.rest_cons, Parsed.rest_wrap, List.length_cons]
      omega
    · simp

end ServiceAnnotator.Grammar
