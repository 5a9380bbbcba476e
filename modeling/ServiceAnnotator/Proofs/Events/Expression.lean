import ServiceAnnotator.Events.Rules
import ServiceAnnotator.Proofs.Events.Steps

/-!
# Names, expressions and mappings by events

The rules for names, expressions and mapping constructors read what the grammar reads. The loops
take at least one token each time round, so the number of tokens ahead bounds them.
-/

namespace ServiceAnnotator.Events

variable {source : Source} {parser : Parser} {ahead rest : List PlacedToken} {first : PlacedToken}

/-- One token and then some more. -/
theorem tokens_one_andThen (count : Nat) (first : PlacedToken) (rest : List PlacedToken) :
    ((Parsed.tokens 1 (first :: rest)).andThen fun _ => .tokens count rest) =
      .tokens (1 + count) (first :: rest) := by
  rw [Nat.add_comm]
  rfl

/-! ## Names and expressions -/

/-- A run of tokens is taken up to where the grammar ends it. -/
theorem reads_balanced (stands : Stands source parser ahead) (stop : KindSet) (depth : Nat)
    (consumed : Bool) :
    Reads source parser (balanced stop depth consumed)
      (consumed || Grammar.runLength stop depth ahead != 0)
      (.tokens (Grammar.runLength stop depth ahead) ahead) := by
  induction ahead generalizing parser depth consumed with
  | nil =>
    apply Runs.recurring
    apply stands.peek
    rw [if_pos (.inl rfl)]
    exact .pure ⟨by simp [Grammar.runLength], .none stands⟩
  | cons first rest ih =>
    apply Runs.recurring
    apply stands.peek
    rw [Grammar.next, Grammar.runLength]
    have real := stands.kind_ne_endOfFile
    by_cases ends : depth = 0 ∧ stop.contains (Kinded.kind first)
    · rw [if_pos (.inr ends), if_pos ends]
      exact .pure ⟨by simp, .none stands⟩
    · rw [if_neg (by simp [real, ends]), if_neg ends]
      -- A token that is taken is a token consumed, whatever was consumed before.
      have further (depth : Nat) :
          Reads source parser (do advance; parser.onward (balanced stop depth true))
            (consumed || 1 + Grammar.runLength stop depth rest != 0)
            (.tokens (1 + Grammar.runLength stop depth rest) (first :: rest)) := by
        apply (reads_advance stands).step
        intro behind so
        rw [← tokens_one_andThen]
        have some : (consumed || 1 + Grammar.runLength stop depth rest != 0) = true := by
          rw [bne_iff_ne.mpr (by omega), Bool.or_true]
        rw [some]
        exact so.last
          (stands.onward so.stands (Nat.lt_succ_self _) (ih so.stands depth true))
      cases Grammar.bracket (Kinded.kind first) with
      | opens => exact further (depth + 1)
      | neither => exact further depth
      | closes =>
        by_cases outside : depth = 0
        · simp only [outside, ↓reduceIte]
          exact .pure ⟨by simp, .none stands⟩
        · simp only [outside, ↓reduceIte]
          exact further (depth - 1)

theorem reads_nameReference (stands : Stands source parser ahead) (recovery : KindSet) :
    Reads source parser (nameReference recovery) () (Grammar.nameReference recovery ahead) := by
  rw [nameReference]
  apply stands.peek
  cases ahead with
  | nil => exact reads_errorRecover stands _ recovery
  | cons first rest =>
    rw [Grammar.next, Grammar.nameReference]
    by_cases named : Kinded.kind first = .identifier
    · rw [if_pos named, if_pos named]
      apply stands.start
      apply (reads_advance stands.opened).step
      intro behind so
      apply so.eat .colon (by decide)
      · intro second name behind (split : rest = second :: name) colon so
        subst split
        rw [if_pos rfl, Grammar.next, if_pos colon]
        have standsName : Stands source behind name := so.stands
        apply so.step (reads_expect standsName .identifier (by decide)).discard
        intro behind so
        exact so.complete .qualifiedNameReference (by decide)
      · intro (noColon : Grammar.next rest ≠ .colon)
        rw [if_neg Bool.false_ne_true, if_neg noColon]
        exact so.complete .simpleNameReference (by decide)
    · rw [if_neg named, if_neg named]
      exact reads_errorRecover stands _ recovery

/-- An expression is there if it takes a token. -/
theorem reads_expression (stands : Stands source parser ahead) (stop : KindSet) :
    Reads source parser (expression stop) (Grammar.runLength stop 0 ahead != 0)
      (Grammar.expression stop ahead) := by
  rw [expression, Grammar.expression]
  apply stands.start
  apply (reads_balanced stands.opened stop 0 false).step
  intro behind so
  rw [Bool.false_or]
  by_cases nothing : Grammar.runLength stop 0 ahead = 0
  · rw [nothing] at so ⊢
    rw [if_pos rfl, bne_self_eq_false, if_neg Bool.false_ne_true]
    apply so.abandon.andThen
    intro _ behind holds
    exact (reads_error holds.2.stands _).step fun last more => .pure ⟨rfl, holds.2.andThen more⟩
  · rw [bne_iff_ne.mpr nothing, if_pos rfl, if_neg nothing]
    exact (so.complete .expression (by decide)).andThen fun _ last holds => .pure ⟨rfl, holds.2⟩

/-- Listener expressions are read as long as a comma follows. -/
theorem reads_listeners {parser : Parser} {ahead : List PlacedToken}
    (stands : Stands source parser ahead) :
    Reads source parser listeners () (Grammar.listeners ahead) := by
  rw [Grammar.listeners_eq]
  apply Runs.recurring
  apply (reads_expression stands Grammar.listenerEnd).step
  intro behind so
  rw [Grammar.expression] at so
  by_cases nothing : Grammar.runLength Grammar.listenerEnd 0 ahead = 0
  · rw [nothing] at so ⊢
    rw [bne_self_eq_false, if_neg Bool.false_ne_true]
    exact .pure ⟨rfl, so⟩
  · rw [if_neg nothing] at so ⊢
    rw [bne_iff_ne.mpr nothing, if_pos rfl]
    generalize Grammar.runLength Grammar.listenerEnd 0 ahead = length at so ⊢
    rw [Parsed.andThen, Parsed.rest_wrap, Parsed.rest_tokens, Grammar.furtherListeners]
    apply so.eat .comma (by decide)
    · intro separator rest behind (split : ahead.drop length = separator :: rest) comma so
      have shorter : rest.length < ahead.length := Grammar.length_lt_of_drop_eq_cons split
      rw [if_pos rfl, split, Grammar.next, if_pos comma]
      have standsMore : Stands source behind rest := so.stands
      have more := so.last (stands.onward standsMore shorter (reads_listeners standsMore))
      rw [Parsed.andThen_assoc] at more
      exact more
    · intro (noComma : Grammar.next (ahead.drop length) ≠ .comma)
      rw [if_neg Bool.false_ne_true, if_neg noComma]
      exact .pure ⟨rfl, so.andThen (.none so.stands)⟩
termination_by ahead.length

theorem reads_expressionList (stands : Stands source parser ahead) :
    Reads source parser expressionList () (Grammar.expressionList ahead) := by
  rw [expressionList]
  apply stands.start
  exact (reads_listeners stands.opened).step fun behind so => so.complete .expressionList (by decide)

/-! ## Mapping constructors -/

/-- Fields are read up to the brace that closes the mapping constructor, which the grammar reads
with them. -/
def ReadsFields (source : Source) (parser : Parser) (action : Action Unit)
    (ahead : List PlacedToken) : Prop :=
  Runs action parser fun _ behind => ∃ inner, After source parser behind inner ∧
    inner.andThen (Grammar.expect .rightBrace) = (Grammar.fields ahead).val

/-- An action reads the mapping constructors that have at most a number of tokens ahead. -/
def ReadsMappings (source : Source) (nested : Action Unit) (most : Nat) : Prop :=
  ∀ {parser : Parser} {brace : PlacedToken} {rest : List PlacedToken},
    (brace :: rest).length ≤ most → Stands source parser (brace :: rest) →
      Kinded.kind brace = .leftBrace → Reads source parser nested ()
        (((Parsed.tokens 1 (brace :: rest)).andThen fun behind =>
          (Grammar.fields behind).val).wrap .mappingConstructor)

variable {nested action : Action Unit} {most : Nat}

/-- Fields that are read behind something else. -/
theorem After.fields {middle : Parser} {so : Parsed PlacedToken}
    (start : After source parser middle so) (reads : ReadsFields source middle action so.rest) :
    Runs action middle fun _ behind => ∃ inner, After source parser behind inner ∧
      inner.andThen (Grammar.expect .rightBrace) =
        so.andThen fun rest => (Grammar.fields rest).val := by
  apply reads.imp
  intro _ behind holds
  obtain ⟨inner, further, same⟩ := holds
  refine ⟨_, start.andThen further, ?_⟩
  rw [Parsed.andThen_assoc, same]
  rfl

theorem reads_fieldValue (nests : ReadsMappings source nested most)
    (stands : Stands source parser ahead) (fits : ahead.length ≤ most) :
    Reads source parser (fieldValue nested) () (Grammar.fieldValue ahead).val := by
  rw [fieldValue, Grammar.val_fieldValue]
  apply stands.peek
  cases ahead with
  | nil => exact (reads_expression stands Grammar.fieldEnd).discard
  | cons first rest =>
    rw [Grammar.next]
    by_cases opens : Kinded.kind first = .leftBrace
    · rw [if_pos opens, if_pos opens]
      exact nests fits stands opens
    · rw [if_neg opens, if_neg opens]
      exact (reads_expression stands Grammar.fieldEnd).discard

theorem reads_valueBehindKey (nests : ReadsMappings source nested most)
    (stands : Stands source parser ahead) (fits : ahead.length ≤ most) :
    Reads source parser (valueBehindKey nested) ()
      (if Grammar.next ahead = .colon then
        (Parsed.tokens 1 ahead).andThen fun behind => (Grammar.fieldValue behind).val
      else .none ahead) := by
  rw [valueBehindKey]
  apply stands.eat .colon (by decide)
  · intro second rest behind split colon so
    have shorter : rest.length < ahead.length := split ▸ Nat.lt_succ_self _
    rw [if_pos rfl, split, Grammar.next, if_pos colon]
    have standsValue : Stands source behind rest := so.stands
    exact so.last (reads_fieldValue nests standsValue (Nat.le_trans (Nat.le_of_lt shorter) fits))
  · intro noColon
    rw [if_neg Bool.false_ne_true, if_neg noColon]
    exact .pure ⟨rfl, .none stands⟩

theorem reads_field (nests : ReadsMappings source nested most)
    (stands : Stands source parser (first :: rest)) (fits : rest.length ≤ most) :
    Reads source parser (field nested) (Grammar.fieldStart.contains (Kinded.kind first))
      (if Grammar.fieldStart.contains (Kinded.kind first) then (Grammar.field first rest).val
      else .problem .expectedFieldName (first :: rest)) := by
  rw [field, Grammar.val_field]
  apply stands.peek
  rw [Grammar.next]
  by_cases spread : Kinded.kind first = .ellipsis
  · rw [spread, if_pos rfl, if_pos rfl, if_pos (by decide)]
    apply stands.start
    apply (reads_advance stands.opened).step
    intro behind so
    apply so.step (reads_expression so.stands Grammar.fieldEnd).discard
    intro behind so
    exact (so.complete .spreadField (by decide)).andThen fun _ last holds => .pure ⟨rfl, holds.2⟩
  · rw [if_neg spread, if_neg spread]
    by_cases key : Kinded.kind first = .identifier ∨ Kinded.kind first = .stringLiteral
    · have starts : Grammar.fieldStart.contains (Kinded.kind first) = true := by
        rcases key with name | literal
        · rw [name]; decide
        · rw [literal]; decide
      rw [if_pos key, starts, if_pos rfl]
      apply stands.start
      apply (reads_advance stands.opened).step
      intro behind so
      have standsBehind : Stands source behind rest := so.stands
      apply so.step (reads_valueBehindKey nests standsBehind fits)
      intro behind so
      refine (so.complete .specificField (by decide)).andThen fun _ last holds => .pure ⟨rfl, ?_⟩
      by_cases colon : Grammar.next rest = .colon
      · rw [if_pos colon] at holds ⊢
        exact holds.2
      · rw [if_neg colon] at holds ⊢
        exact holds.2
    · rw [if_neg key]
      have starts : Grammar.fieldStart.contains (Kinded.kind first) = false := by
        cases kindEq : Kinded.kind first <;> simp_all [Grammar.fieldStart, KindSet.ofList]
      rw [starts, if_neg Bool.false_ne_true]
      exact (reads_error stands _).step fun behind so => .pure ⟨rfl, so⟩

theorem runs_furtherFields {middle : Parser} {one : Parsed PlacedToken}
    (so : After source parser middle one)
    (again : ∀ {behind : Parser} {rest : List PlacedToken}, rest.length ≤ one.rest.length →
      Stands source behind rest → ReadsFields source behind action rest) :
    Runs (furtherFields action) middle fun _ behind =>
      ∃ inner, After source parser behind inner ∧
        inner.andThen (Grammar.expect .rightBrace) =
          one.andThen fun rest => (Grammar.furtherFields rest).val := by
  have stands := so.stands
  rw [furtherFields, Parsed.andThen, Grammar.val_furtherFields]
  apply so.eat .comma (by decide)
  · intro separator rest behind split comma so
    have shorter : rest.length < one.rest.length := split ▸ Nat.lt_succ_self _
    rw [if_pos rfl, split, Grammar.next, if_pos comma]
    have further : ReadsFields source behind action rest := again (Nat.le_of_lt shorter) so.stands
    have last := so.fields further
    simp only [Parsed.andThen_assoc] at last
    exact last
  · intro noComma
    rw [if_neg Bool.false_ne_true, if_neg noComma]
    apply stands.peek
    cases starts : Grammar.fieldStart.contains (Grammar.next one.rest) with
    | false =>
      rw [if_neg Bool.false_ne_true, if_neg Bool.false_ne_true]
      exact .pure ⟨_, so, rfl⟩
    | true =>
      rw [if_pos rfl, if_pos rfl]
      have missing := (reads_expect stands .comma (by decide)).discard
      rw [Grammar.expect_eq (by decide), if_neg noComma] at missing
      apply so.step missing
      intro last so
      have further : ReadsFields source last action one.rest := again (Nat.le_refl _) so.stands
      have last := so.fields further
      simp only [Parsed.andThen_assoc] at last
      exact last

/-- Fields are read one by one, and each takes a token. -/
theorem reads_fields {parser : Parser} {ahead : List PlacedToken}
    (nests : ReadsMappings source nested most) (stands : Stands source parser ahead)
    (fits : ahead.length ≤ most) : ReadsFields source parser (fields nested) ahead := by
  have again {behind : Parser} {further : List PlacedToken}
      (fewer : further.length < ahead.length) (standsBehind : Stands source behind further) :
      ReadsFields source behind (parser.onward (fields nested)) further :=
    stands.onward standsBehind fewer
      (reads_fields nests standsBehind (Nat.le_trans (Nat.le_of_lt fewer) fits))
  apply Runs.recurring
  apply stands.peek
  cases ahead with
  | nil =>
    rw [if_pos (.inr rfl)]
    exact .pure ⟨_, .none stands, by rw [Grammar.val_fields_nil]; rfl⟩
  | cons first rest =>
    have real := stands.kind_ne_endOfFile
    rw [Grammar.next, Grammar.val_fields_cons]
    by_cases closes : Kinded.kind first = .rightBrace
    · rw [if_pos (.inl closes), if_pos closes]
      refine .pure ⟨_, .none stands, ?_⟩
      rw [Parsed.none_andThen, Grammar.expect, if_pos closes]
    · rw [if_neg (by simp [closes, real]), if_neg closes]
      by_cases comma : Kinded.kind first = .comma
      · rw [if_pos comma, if_pos comma]
        apply (reads_errorAndBump stands .strayComma).step
        intro behind so
        exact so.fields (again (Nat.lt_succ_self _) so.stands)
      · rw [if_neg comma, if_neg comma]
        apply (reads_field nests stands (Nat.le_trans (Nat.le_succ _) fits)).step
        intro behind so
        cases starts : Grammar.fieldStart.contains (Kinded.kind first) with
        | false =>
          rw [starts] at so
          exact .pure ⟨_, so, rfl⟩
        | true =>
          rw [starts, if_pos rfl] at so
          rw [if_pos rfl, if_pos rfl]
          have shorter : (Grammar.field first rest).val.rest.length ≤ rest.length :=
            (Grammar.field first rest).property
          exact runs_furtherFields so fun fewer =>
            again (Nat.lt_succ_of_le (Nat.le_trans fewer shorter))
termination_by ahead.length
decreasing_by exact fewer

/-- A mapping constructor is read with the mapping constructors inside, which are shorter. -/
theorem reads_mapping {parser : Parser} {brace : PlacedToken} {rest : List PlacedToken}
    (stands : Stands source parser (brace :: rest)) (opens : Kinded.kind brace = .leftBrace) :
    Reads source parser mapping ()
      (((Parsed.tokens 1 (brace :: rest)).andThen fun behind => (Grammar.fields behind).val).wrap
        .mappingConstructor) := by
  have nests : ReadsMappings source (parser.onward mapping) rest.length :=
    fun fits standsInside opensInside =>
      stands.onward standsInside (Nat.lt_succ_of_le fits) (reads_mapping standsInside opensInside)
  apply Runs.recurring
  apply stands.start
  apply stands.opened.peek
  rw [Grammar.next, opens]
  refine .thence rfl ?_
  apply (reads_advance stands.opened).step
  intro behind so
  have inside : ReadsFields source behind (fields (parser.onward mapping)) rest :=
    reads_fields nests so.stands (Nat.le_refl _)
  apply (so.fields inside).andThen
  intro _ last holds
  obtain ⟨inner, so, same⟩ := holds
  have closes := (reads_expect so.stands .rightBrace (by decide)).discard
  apply so.step closes
  intro behind so
  rw [← same]
  exact so.complete .mappingConstructor (by decide)
termination_by rest.length
decreasing_by exact fits

end ServiceAnnotator.Events
