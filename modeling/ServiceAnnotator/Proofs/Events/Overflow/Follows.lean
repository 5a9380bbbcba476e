import ServiceAnnotator.Proofs.Events.Overflow.Agree
import ServiceAnnotator.Proofs.Events.Runs

/-!
# Small markers follow markers that hold any position

Two parsers go through the same actions, one with markers that hold any position and one with small
markers. The second stays in step with the first or stops with a fault, and it stops only where a
node of the first has escaped. A node that has escaped stays so.
-/

namespace ServiceAnnotator.Events

variable {α β γ : Type}

/-- From a state an action ends with a result in another state. -/
def Ends (action : Action β) (parser : Parser) (result : β) (behind : Parser) : Prop :=
  (action.run parser).run = some (.ok (result, behind))

/-- From a state an action stops with a fault. -/
def Stops (action : Action β) (parser : Parser) : Prop :=
  ∃ fault, (action.run parser).run = some (.error fault)

/-- A parser with small markers is in step with one whose markers hold any position. -/
structure InStep (positions : Nat) (wide narrow : Parser) : Prop where
  tokenizer : narrow.tokenizer = wide.tokenizer
  diagnostics : narrow.diagnostics = wide.diagnostics
  markers : narrow.markers = wide.markers
  agree : Agree positions wide.events narrow.events
  few : narrow.positions = positions

/-- Where an action with markers that hold any position ends, an action with small markers ends in
step with it, with a result that fits, or stops with a fault where a node has escaped. -/
structure FollowsFrom (positions : Nat) (fits : β → γ → Prop) (narrow : Action γ) (parser : Parser)
    (result : β) (behind : Parser) : Prop where
  any : behind.positions = 0
  possible : ∃ resultOther, fits result resultOther
  escapes : Escapes positions parser.events → Escapes positions behind.events
  inStep : ∀ {other}, InStep positions parser other →
    (∃ resultOther behindOther, Ends narrow other resultOther behindOther ∧
      fits result resultOther ∧ InStep positions behind behindOther) ∨
    Stops narrow other ∧ Escapes positions behind.events

/-- An action with small markers follows an action with markers that hold any position, wherever
that ends. -/
structure Follows (positions : Nat) (fits : β → γ → Prop) (wide : Action β) (narrow : Action γ) :
    Prop where
  wherever : ∀ {parser result behind}, parser.positions = 0 → Ends wide parser result behind →
    FollowsFrom positions fits narrow parser result behind

variable {positions : Nat}

theorem Ends.unique {action : Action β} {parser behind last : Parser} {result given : β}
    (ended : Ends action parser result behind) (known : Ends action parser given last) :
    result = given ∧ behind = last := by
  cases ended.symm.trans known
  exact ⟨rfl, rfl⟩

theorem Ends.not_stops {action : Action β} {parser behind : Parser} {result : β}
    (ended : Ends action parser result behind) : ¬Stops action parser := by
  rintro ⟨fault, stopped⟩
  cases ended.symm.trans stopped

/-! ## Steps one after the other -/

theorem ends_bind {action : Action β} {further : β → Action γ} {parser behind : Parser}
    {result : γ} : Ends (action >>= further) parser result behind ↔
      ∃ middle between, Ends action parser middle between ∧
        Ends (further middle) between result behind := by
  simp only [Ends, StateT.run_bind, ExceptT.run_bind]
  rcases (action.run parser).run with _ | (fault | ⟨middle, between⟩)
  · simp
  · simp
  · constructor
    · exact fun ended => ⟨_, _, rfl, ended⟩
    · rintro ⟨_, _, same, ended⟩
      cases same
      exact ended

theorem Stops.bind {action : Action β} {parser : Parser} (stops : Stops action parser)
    (further : β → Action γ) : Stops (action >>= further) parser := by
  obtain ⟨fault, stopped⟩ := stops
  refine ⟨fault, ?_⟩
  rw [StateT.run_bind, ExceptT.run_bind, stopped]
  rfl

theorem Stops.behind {action : Action β} {further : β → Action γ} {parser between : Parser}
    {middle : β} (ended : Ends action parser middle between)
    (stops : Stops (further middle) between) :
    Stops (action >>= further) parser := by
  obtain ⟨fault, stopped⟩ := stops
  refine ⟨fault, ?_⟩
  rw [StateT.run_bind, ExceptT.run_bind, ended]
  exact stopped

/-! ## Recursion -/

section

variable {action : Action β} {parser start : Parser} {result : β} {behind : Parser}

theorem ends_onward (fewer : parser.tokenizer.ahead < start.tokenizer.ahead) :
    Ends (start.onward action) parser result behind ↔ Ends action parser result behind := by
  rw [Ends, StateT.run, Parser.onward, if_pos fewer]
  rfl

/-- An action goes on only behind a token. -/
theorem Ends.of_onward (ended : Ends (start.onward action) parser result behind) :
    parser.tokenizer.ahead < start.tokenizer.ahead ∧ Ends action parser result behind := by
  by_cases fewer : parser.tokenizer.ahead < start.tokenizer.ahead
  · exact ⟨fewer, (ends_onward fewer).mp ended⟩
  · rw [Ends, StateT.run, Parser.onward, if_neg fewer] at ended
    cases ended

theorem stops_onward (fewer : parser.tokenizer.ahead < start.tokenizer.ahead) :
    Stops (start.onward action) parser ↔ Stops action parser := by
  rw [Stops, StateT.run, Parser.onward, if_pos fewer]
  rfl

variable {body : (α → Action β) → α → Action β} {argument : α}

theorem ends_recurring : Ends (recurring body argument) parser result behind ↔
    Ends (body (fun argument => parser.onward (recurring body argument)) argument) parser result
      behind := by
  rw [Ends, StateT.run, recurring]
  rfl

theorem stops_recurring : Stops (recurring body argument) parser ↔
    Stops (body (fun argument => parser.onward (recurring body argument)) argument) parser := by
  rw [Stops, StateT.run, recurring]
  rfl

end

/-! ## Steps of actions that follow -/

/-- Behind a step that follows, the next step follows. -/
theorem FollowsFrom.bind {β' γ' : Type} {middle : β → β' → Prop} {fits : γ → γ' → Prop}
    {other : Action β'} {further : β' → Action γ'} {parser between behind : Parser} {given : β}
    {result : γ} (first : FollowsFrom positions middle other parser given between)
    (second : ∀ {givenOther}, middle given givenOther →
      FollowsFrom positions fits (further givenOther) between result behind) :
    FollowsFrom positions fits (other >>= further) parser result behind := by
  obtain ⟨_, someFit⟩ := first.possible
  have after := second someFit
  refine ⟨after.any, after.possible, fun escapes => after.escapes (first.escapes escapes),
    fun inStep => ?_⟩
  rcases first.inStep inStep with ⟨_, _, endedOther, fit, inStep⟩ | ⟨stops, escapes⟩
  · refine ((second fit).inStep inStep).imp ?_ fun ⟨stops, escapes⟩ =>
      ⟨stops.behind endedOther, escapes⟩
    rintro ⟨resultOther, behindOther, endedBehind, fits, inStep⟩
    exact ⟨resultOther, behindOther, ends_bind.mpr ⟨_, _, endedOther, endedBehind⟩, fits, inStep⟩
  · exact .inr ⟨stops.bind _, after.escapes escapes⟩

namespace Follows

/-- An action follows step by step. -/
theorem bind {β' γ' : Type} {middle : β → β' → Prop} {fits : γ → γ' → Prop} {action : Action β}
    {other : Action β'} {further : β → Action γ} {furtherOther : β' → Action γ'}
    (first : Follows positions middle action other)
    (second : ∀ {result resultOther}, middle result resultOther →
      Follows positions fits (further result) (furtherOther resultOther)) :
    Follows positions fits (action >>= further) (other >>= furtherOther) := by
  refine ⟨fun {parser result behind} any ended => ?_⟩
  obtain ⟨given, between, endedFirst, endedSecond⟩ := ends_bind.mp ended
  have before := first.wherever any endedFirst
  exact before.bind fun fit => (second fit).wherever before.any endedSecond

variable {fits : β → γ → Prop}

/-- An action gives the same result for both, and both go on with it. -/
theorem andThen {action : Action α} {further : α → Action β} {furtherOther : α → Action γ}
    (first : Follows positions Eq action action)
    (second : ∀ result, Follows positions fits (further result) (furtherOther result)) :
    Follows positions fits (action >>= further) (action >>= furtherOther) :=
  first.bind fun {result _} same => same ▸ second result

theorem pure {result : β} {resultOther : γ} (fit : fits result resultOther) :
    Follows positions fits (Pure.pure result) (Pure.pure resultOther) := by
  refine ⟨fun {parser given behind} any ended => ?_⟩
  cases ended
  exact ⟨any, ⟨_, fit⟩, id, fun inStep => .inl ⟨_, _, rfl, fit, inStep⟩⟩

/-- An action that stops with a fault never ends. -/
theorem throw (fault : Fault) (other : Action γ) :
    Follows positions fits (throw fault) other := by
  refine ⟨fun {parser result behind} any ended => ?_⟩
  cases ended

theorem ite {condition : Prop} [Decidable condition] {yes no : Action β}
    {yesOther noOther : Action γ}
    (taken : Follows positions fits yes yesOther) (left : Follows positions fits no noOther) :
    Follows positions fits (if condition then yes else no)
      (if condition then yesOther else noOther) := by
  split
  · exact taken
  · exact left

theorem discard {action : Action β} {other : Action γ}
    (follows : Follows positions fits action other) :
    Follows positions Eq (Functor.discard action) (Functor.discard other) := by
  have discardEq {δ : Type} (action : Action δ) :
      Functor.discard action = action >>= fun _ => Pure.pure PUnit.unit := rfl
  rw [discardEq, discardEq]
  exact follows.bind fun _ => .pure rfl

/-- Both see the same token next. -/
theorem peek {further : Kind → Action β} {furtherOther : Kind → Action γ}
    (second : ∀ kind, Follows positions fits (further kind) (furtherOther kind)) :
    Follows positions fits (peekKind >>= further) (peekKind >>= furtherOther) := by
  refine andThen ?_ second
  refine ⟨fun {parser result behind} any ended => ?_⟩
  cases ended
  refine ⟨any, ⟨_, rfl⟩, id, fun {other} inStep => .inl ⟨_, other, rfl, ?_, inStep⟩⟩
  rw [inStep.tokenizer]

/-- An action that uses itself again follows if its body does wherever it goes on likewise. -/
theorem recurring {fits : β → β → Prop} {body : (α → Action β) → α → Action β} (valid : α → Prop)
    (step : ∀ again : α → Action β,
      (∀ argument, valid argument → Follows positions fits (again argument) (again argument)) →
        ∀ argument, valid argument →
          Follows positions fits (body again argument) (body again argument))
    {argument : α} (isValid : valid argument) :
    Follows positions fits (recurring body argument) (Events.recurring body argument) := by
  refine ⟨fun {parser result behind} any ended => ?_⟩
  induction ahead : parser.tokenizer.ahead using Nat.strongRecOn
    generalizing parser argument result behind with
  | _ most ih =>
    -- The action goes on only where there are fewer tokens ahead.
    have again (argument : α) (isValid : valid argument) :
        Follows positions fits (parser.onward (Events.recurring body argument))
          (parser.onward (Events.recurring body argument)) := by
      refine ⟨fun {middle given last} anyMiddle goesOn => ?_⟩
      obtain ⟨fewer, goesOn⟩ := goesOn.of_onward
      have further := ih _ (ahead ▸ fewer) isValid anyMiddle goesOn rfl
      refine ⟨further.any, further.possible, further.escapes, fun {other} inStep => ?_⟩
      have fewerOther : other.tokenizer.ahead < parser.tokenizer.ahead := by
        rwa [inStep.tokenizer]
      simpa only [ends_onward fewerOther, stops_onward fewerOther] using further.inStep inStep
    rw [ends_recurring] at ended
    have first := (step _ again argument isValid).wherever any ended
    refine ⟨first.any, first.possible, first.escapes, fun {other} inStep => ?_⟩
    have sameOnward (action : Action β) : other.onward action = parser.onward action := by
      funext behind
      rw [Parser.onward, Parser.onward, inStep.tokenizer]
    simpa only [ends_recurring, stops_recurring, sameOnward] using first.inStep inStep

end Follows

end ServiceAnnotator.Events
