import ServiceAnnotator.Proofs.Events.Described
import ServiceAnnotator.Proofs.Events.Runs
import ServiceAnnotator.Proofs.Grammar.Equations
import ServiceAnnotator.Proofs.Scan.Tokenizer

/-!
# Where a parser stands

A parser stands in front of the tokens that the grammar has still to read. What an action adds to
the events and to the diagnostics is compared with what the grammar reads there. An action that is
inside an open node is compared from the point at which the node was opened.
-/

namespace ServiceAnnotator.Events

/-- The tokens of a text, and the end of the file behind them. -/
structure Source where
  tokens : List PlacedToken
  stop : PlacedToken
  significant : ∀ placed ∈ tokens, placed.token.kind ≠ .endOfFile
  ends : stop.token.kind = .endOfFile

/-- The token that has a number of tokens ahead, itself counted, or the end of the file. -/
def Source.token (source : Source) (ahead : Nat) : PlacedToken :=
  (source.tokens ++ [source.stop]).getD (source.tokens.length - ahead) source.stop

/-- What a report of the grammar is to the reader. -/
def Source.diagnose (source : Source) (report : Report) : Diagnostic :=
  ⟨.error, report.problem.message, (source.token report.ahead).lexemeSpan⟩

/-- A parser whose markers hold any position stands in front of tokens of a source. -/
structure Stands (source : Source) (parser : Parser) (ahead : List PlacedToken) : Prop where
  suffix : ahead <:+ source.tokens
  yields : parser.tokenizer.Yields (ahead ++ [source.stop])
  any : parser.positions = 0

/-- A parser has gone on from one state to another and has read something on its way. -/
structure After (source : Source) (parser behind : Parser) (parsed : Parsed PlacedToken) :
    Prop where
  stands : Stands source behind parsed.rest
  events : ∃ events, behind.events = parser.events ++ events ∧ Describes events parsed.elements
  diagnostics : behind.diagnostics = parser.diagnostics ++ parsed.reports.map source.diagnose
  markers : behind.markers = parser.markers

variable {source : Source} {parser middle behind : Parser} {ahead rest : List PlacedToken}
variable {first : PlacedToken} {β γ : Type}

namespace Stands

/-- The kind of the next token is the kind of the first token ahead. -/
theorem kind (stands : Stands source parser ahead) :
    parser.tokenizer.kind = Grammar.next ahead := by
  have yields := stands.yields
  cases ahead with
  | nil => rw [Tokenizer.kind, yields.1, source.ends, Grammar.next]
  | cons first rest => rw [Tokenizer.kind, yields.1]; rfl

theorem kind_ne_endOfFile (stands : Stands source parser (first :: rest)) :
    Kinded.kind first ≠ .endOfFile :=
  source.significant first (stands.suffix.subset (.head _))

/-- The next token is the one that the grammar counts to from the end. -/
theorem current (stands : Stands source parser ahead) :
    parser.tokenizer.current = source.token ahead.length := by
  have yields := stands.yields
  obtain ⟨front, split⟩ := stands.suffix
  have skipped : source.tokens.length - ahead.length = front.length := by
    rw [← split, List.length_append, Nat.add_sub_cancel]
  rw [Source.token, skipped, ← split, List.append_assoc, List.getD_eq_getElem?_getD,
    List.getElem?_append_right (Nat.le_refl _), Nat.sub_self]
  cases ahead with
  | nil => exact yields.1
  | cons first rest => exact yields.1

/-- The tokens that the tokenizer has ahead are those that the grammar has still to read. -/
theorem ahead_eq (stands : Stands source parser ahead) :
    parser.tokenizer.ahead = ahead.length :=
  stands.yields.ahead_eq source.ends fun placed found =>
    source.significant placed (stands.suffix.subset found)

/-- An action that is used again goes on where there are fewer tokens ahead. -/
theorem onward {action : Action γ} {post : γ → Parser → Prop}
    (stands : Stands source parser ahead) (standsBehind : Stands source behind rest)
    (fewer : rest.length < ahead.length) (runs : Runs action behind post) :
    Runs (parser.onward action) behind post := by
  have taken : behind.tokenizer.ahead < parser.tokenizer.ahead := by
    rw [stands.ahead_eq, standsBehind.ahead_eq]
    exact fewer
  exact runs.onward taken

/-- Opening a node takes no token. -/
theorem opened (stands : Stands source parser ahead) : Stands source parser.opened ahead :=
  ⟨stands.suffix, stands.yields, stands.any⟩

theorem start {further : Marker → Action γ} {post : γ → Parser → Prop}
    (stands : Stands source parser ahead)
    (runs : Runs (further ⟨parser.events.length⟩) parser.opened post) :
    Runs (Events.start >>= further) parser post := by
  apply (runs_start stands.any).andThen
  rintro _ _ ⟨rfl, rfl⟩
  exact runs

end Stands

namespace After

theorem none (stands : Stands source parser ahead) :
    After source parser parser (.none ahead) :=
  ⟨stands, ⟨[], (List.append_nil _).symm, .nil⟩, (List.append_nil _).symm, rfl⟩

/-- What was read first and what was read then. -/
theorem andThen {parsed more : Parsed PlacedToken} (start : After source parser middle parsed)
    (further : After source middle behind more) :
    After source parser behind (parsed.andThen fun _ => more) := by
  obtain ⟨events, eventsEq, describes⟩ := start.events
  obtain ⟨moreEvents, moreEq, describesMore⟩ := further.events
  refine ⟨further.stands, ⟨events ++ moreEvents, ?_, describes.append describesMore⟩, ?_, ?_⟩
  · rw [moreEq, eventsEq, List.append_assoc]
  · rw [further.diagnostics, start.diagnostics, List.append_assoc, Parsed.andThen,
      List.map_append]
  · rw [further.markers, start.markers]

end After

/-- An action gives a result and reads what the grammar reads. -/
def Reads (source : Source) (parser : Parser) (action : Action β) (result : β)
    (parsed : Parsed PlacedToken) : Prop :=
  Runs action parser fun given behind => given = result ∧ After source parser behind parsed

section

variable {action : Action β} {further : β → Action γ} {post : γ → Parser → Prop} {result : β}
variable {so more : Parsed PlacedToken}

/-- An action reads something, and the next action goes on from there. -/
theorem Reads.step (reads : Reads source parser action result more)
    (next : ∀ behind, After source parser behind more → Runs (further result) behind post) :
    Runs (action >>= further) parser post := by
  apply reads.andThen
  intro given behind holds
  rw [holds.1]
  exact next behind holds.2

/-- Behind what has been read so far an action reads more, and the next action goes on from
there. -/
theorem After.step (start : After source parser middle so)
    (reads : Reads source middle action result more)
    (next : ∀ behind, After source parser behind (so.andThen fun _ => more) →
      Runs (further result) behind post) :
    Runs (action >>= further) middle post :=
  reads.step fun behind further => next behind (start.andThen further)

/-- The last action that reads something behind what has been read so far. -/
theorem After.last (start : After source parser middle so)
    (reads : Reads source middle action result more) :
    Runs action middle fun given behind =>
      given = result ∧ After source parser behind (so.andThen fun _ => more) :=
  reads.imp fun _ _ holds => ⟨holds.1, start.andThen holds.2⟩

theorem Reads.discard (reads : Reads source parser action result more) :
    Reads source parser (discard action) () more :=
  (Runs.discard (reads.imp fun _ _ holds => holds.2)).imp fun _ _ holds => ⟨rfl, holds⟩

end

/-! ## Tokens -/

/-- Taking a token moves the parser behind it. -/
theorem reads_advance (stands : Stands source parser (first :: rest)) :
    Reads source parser advance () (.tokens 1 (first :: rest)) := by
  have real : parser.tokenizer.kind ≠ .endOfFile := stands.kind ▸ stands.kind_ne_endOfFile
  have current : parser.tokenizer.current = first := stands.yields.1
  have taken : (take.run parser).run = some (.ok ((), { parser with
      events := parser.events ++ [.token first], tokenizer := parser.tokenizer.next })) := by
    rw [← current]
    rfl
  rw [advance]
  apply Runs.peek
  rw [if_neg real]
  refine ⟨(), _, taken, rfl, ?_⟩
  exact ⟨⟨(List.suffix_cons first rest).trans stands.suffix, stands.yields.2, stands.any⟩,
    ⟨_, rfl, .token first .nil⟩, (List.append_nil _).symm, rfl⟩

/-- A problem is reported at the next token. -/
theorem reads_error (stands : Stands source parser ahead) (problem : Problem) :
    Reads source parser (error problem) () (.problem problem ahead) := by
  refine ⟨(), _, rfl, rfl, ⟨stands.suffix, stands.yields, stands.any⟩,
    ⟨[], (List.append_nil _).symm, .nil⟩, ?_, rfl⟩
  simp only [Parsed.problem, List.map_cons, List.map_nil, Source.diagnose, stands.current]

/-- Looking at the next token shows the kind of the first token ahead. -/
theorem Stands.peek {further : Kind → Action γ} {post : γ → Parser → Prop}
    (stands : Stands source parser ahead)
    (runs : Runs (further (Grammar.next ahead)) parser post) :
    Runs (peekKind >>= further) parser post := by
  apply Runs.peek
  rw [stands.kind]
  exact runs

/-- The next token is taken if it is of the given kind, and else nothing has changed. -/
theorem Stands.eat {further : Bool → Action γ} {post : γ → Parser → Prop}
    (stands : Stands source parser ahead) (kind : Kind) (real : kind ≠ .endOfFile)
    (taken : ∀ token rest behind, ahead = token :: rest → Kinded.kind token = kind →
      After source parser behind (.tokens 1 (token :: rest)) → Runs (further true) behind post)
    (missing : Grammar.next ahead ≠ kind → Runs (further false) parser post) :
    Runs (Events.eat kind >>= further) parser post := by
  by_cases isNext : Grammar.next ahead = kind
  · obtain ⟨token, rest, rfl, kindEq⟩ := Grammar.exists_cons_of_next isNext real
    have eats : Reads source parser (Events.eat kind) true (.tokens 1 (token :: rest)) := by
      apply stands.peek
      rw [if_pos isNext]
      exact (reads_advance stands).step fun behind so => .pure ⟨rfl, so⟩
    exact eats.step fun behind so => taken token rest behind rfl kindEq so
  · have leaves : Runs (Events.eat kind) parser fun ate behind => ate = false ∧ behind = parser := by
      apply stands.peek
      rw [if_neg isNext]
      exact .pure ⟨rfl, rfl⟩
    apply leaves.andThen
    intro ate behind holds
    rw [holds.1, holds.2]
    exact missing isNext

/-- The same behind what has been read so far. -/
theorem After.eat {further : Bool → Action γ} {post : γ → Parser → Prop}
    {parsed : Parsed PlacedToken} (so : After source parser middle parsed) (kind : Kind)
    (real : kind ≠ .endOfFile)
    (taken : ∀ token rest behind, parsed.rest = token :: rest → Kinded.kind token = kind →
      After source parser behind (parsed.andThen fun _ => .tokens 1 (token :: rest)) →
        Runs (further true) behind post)
    (missing : Grammar.next parsed.rest ≠ kind → Runs (further false) middle post) :
    Runs (Events.eat kind >>= further) middle post :=
  so.stands.eat kind real
    (fun token rest behind split kindEq more =>
      taken token rest behind split kindEq (so.andThen more)) missing

theorem reads_expect (stands : Stands source parser ahead) (kind : Kind)
    (real : kind ≠ .endOfFile) :
    Reads source parser (expect kind) (Grammar.next ahead == kind) (Grammar.expect kind ahead) := by
  rw [expect, Grammar.expect_eq real]
  apply stands.eat kind real
  · intro token rest behind split kindEq so
    subst split
    rw [Grammar.next, if_pos kindEq, kindEq, beq_self_eq_true]
    exact .pure ⟨rfl, so⟩
  · intro isNext
    rw [if_neg isNext, beq_false_of_ne isNext]
    exact (reads_error stands _).step fun behind so => .pure ⟨rfl, so⟩

/-- Tokens are taken up to the first one that does not satisfy the condition. -/
theorem reads_advanceWhile {p : Kind → Bool} (stops : p .endOfFile = false)
    (stands : Stands source parser ahead) :
    Reads source parser (advanceWhile p) ()
      (.tokens (ahead.takeWhile fun token => p (Kinded.kind token)).length ahead) := by
  induction ahead generalizing parser with
  | nil =>
    apply Runs.recurring
    apply stands.peek
    rw [Grammar.next, stops]
    exact .pure ⟨rfl, .none stands⟩
  | cons first rest ih =>
    apply Runs.recurring
    apply stands.peek
    rw [Grammar.next, List.takeWhile_cons]
    cases taken : p (Kinded.kind first) with
    | false => exact .pure ⟨rfl, .none stands⟩
    | true =>
      apply (reads_advance stands).step
      intro behind so
      exact so.last (stands.onward so.stands (Nat.lt_succ_self _) (ih so.stands))

/-! ## Nodes -/

/-- The event in the place of a node gets the kind of the node when it is complete. -/
theorem runs_complete {kind : Kind} {before inner : List Event}
    (opened : parser.events = before ++ .tombstone :: inner) :
    Runs (Marker.complete ⟨before.length⟩ kind) parser fun completed behind =>
      completed = ⟨before.length⟩ ∧ behind = { parser with
        events := before ++ .start kind none :: (inner ++ [.finish])
        markers := parser.markers - 1 } := by
  have found : parser.events[before.length]? = some (.start .tombstone none) := by
    rw [opened, List.getElem?_append_right (Nat.le_refl _), Nat.sub_self]
    rfl
  have written : parser.events.set before.length (.start kind none) =
      before ++ .start kind none :: inner := by
    rw [opened, List.set_append_right _ _ (Nat.le_refl _), Nat.sub_self]
    rfl
  rw [Marker.complete]
  refine .thence rfl ?_
  simp only [found]
  refine ⟨_, _, rfl, rfl, ?_⟩
  simp only [written, List.append_assoc, List.cons_append]

/-- A node is open behind some events. Once it is complete, it holds what was read in front of it as
well, and the events since then describe it. -/
structure Opens (source : Source) (parser opened : Parser) (before : List Event)
    (front : Parsed PlacedToken) : Prop where
  events : opened.events = before ++ [.tombstone]
  describes : ∀ {kind : Kind} {inner : List Event} {children : List (Tree PlacedToken)},
    kind ≠ .tombstone → Describes inner children →
      ∃ events, before ++ .start kind none :: (inner ++ [.finish]) = parser.events ++ events ∧
        Describes events [.node kind (front.elements ++ children)]
  diagnostics : opened.diagnostics = parser.diagnostics ++ front.reports.map source.diagnose
  markers : opened.markers = parser.markers + 1

/-- A node that opens by itself holds only what is read inside. -/
theorem Opens.start (source : Source) (parser : Parser) (ahead : List PlacedToken) :
    Opens source parser parser.opened parser.events (.none ahead) :=
  ⟨rfl, fun real inside => ⟨_, rfl, inside.wrap real⟩, (List.append_nil _).symm, rfl⟩

/-- A node is complete around what was read in front of it and inside. -/
theorem Opens.complete {opened : Parser} {before : List Event} {front parsed : Parsed PlacedToken}
    (opens : Opens source parser opened before front) (so : After source opened middle parsed)
    (kind : Kind) (real : kind ≠ .tombstone) :
    Runs (discard (Marker.complete ⟨before.length⟩ kind)) middle fun given behind =>
      given = () ∧ After source parser behind ((front.andThen fun _ => parsed).wrap kind) := by
  obtain ⟨inner, innerEq, inside⟩ := so.events
  obtain ⟨events, eventsEq, describes⟩ := opens.describes real inside
  have standsOpen : middle.events = before ++ .tombstone :: inner := by
    rw [innerEq, opens.events, List.append_assoc, List.singleton_append]
  refine (Runs.discard ((runs_complete standsOpen).imp fun _ _ holds => holds.2)).imp
    fun _ behind same => ⟨rfl, ?_⟩
  subst same
  refine ⟨⟨so.stands.suffix, so.stands.yields, so.stands.any⟩, ⟨events, eventsEq, describes⟩, ?_,
    ?_⟩
  · rw [so.diagnostics, opens.diagnostics, List.append_assoc, ← List.map_append]
    rfl
  · rw [so.markers, opens.markers, Nat.add_sub_cancel]

/-- A node is complete around everything that was read since it was opened. -/
theorem After.complete {parsed : Parsed PlacedToken}
    (so : After source parser.opened middle parsed) (kind : Kind) (real : kind ≠ .tombstone) :
    Runs (discard (Marker.complete ⟨parser.events.length⟩ kind)) middle fun given behind =>
      given = () ∧ After source parser behind (parsed.wrap kind) :=
  (Opens.start source parser []).complete so kind real

/-- A node is given up without a trace when it is still empty. -/
theorem After.abandon (so : After source parser.opened middle (.none ahead)) :
    Runs (Marker.abandon ⟨parser.events.length⟩) middle fun given behind =>
      given = () ∧ After source parser behind (.none ahead) := by
  obtain ⟨inner, innerEq, describes⟩ := so.events
  have eventsEq : middle.events = parser.events ++ [.tombstone] := by
    rw [innerEq, describes.eq_nil, List.append_nil]
    rfl
  have lengthEq : middle.events.length = parser.events.length + 1 := by simp [eventsEq]
  rw [Marker.abandon]
  refine .thence rfl ?_
  rw [lengthEq]
  refine ⟨(), _, rfl, rfl, ⟨so.stands.suffix, so.stands.yields, so.stands.any⟩, ⟨[], ?_, .nil⟩,
    so.diagnostics, ?_⟩
  · simp [eventsEq]
  · simp [so.markers, Parser.opened]

/-! ## Recovery -/

theorem reads_errorAndBump (stands : Stands source parser (first :: rest)) (problem : Problem) :
    Reads source parser (errorAndBump problem) ()
      (((Parsed.none rest).cons (.node .error [.leaf first])).report problem (rest.length + 1)) := by
  rw [errorAndBump]
  apply stands.start
  apply (reads_error stands.opened problem).step
  intro behind so
  apply so.step (reads_advance so.stands)
  intro behind so
  exact so.complete .error (by decide)

/-- None of the tokens ahead is the end of the file, so recovery need not look out for it. -/
theorem Stands.takeWhile_eq (stands : Stands source parser ahead) (p : Kind → Bool) :
    (ahead.takeWhile fun token => p (Kinded.kind token) && Kinded.kind token != .endOfFile) =
      ahead.takeWhile fun token => p (Kinded.kind token) := by
  have significant : ∀ token ∈ ahead, Kinded.kind token ≠ .endOfFile :=
    fun token found => source.significant token (stands.suffix.subset found)
  clear stands
  induction ahead with
  | nil => rfl
  | cons first rest ih =>
    have real : Kinded.kind first ≠ .endOfFile := significant first (.head _)
    rw [List.takeWhile_cons, List.takeWhile_cons,
      ih fun token found => significant token (.tail _ found), bne_iff_ne.mpr real, Bool.and_true]

theorem reads_errorRecover (stands : Stands source parser ahead) (problem : Problem)
    (recovery : KindSet) :
    Reads source parser (errorRecover problem recovery) ()
      (Grammar.recover problem recovery ahead) := by
  rw [errorRecover, Grammar.recover_eq]
  apply (reads_error stands problem).step
  intro behind so
  have stands : Stands source behind ahead := so.stands
  apply stands.peek
  cases ahead with
  | nil =>
    rw [if_pos (.inr rfl)]
    exact .pure ⟨rfl, so⟩
  | cons first rest =>
    have real := stands.kind_ne_endOfFile
    rw [List.takeWhile_cons, Grammar.next]
    cases stops : recovery.contains (Kinded.kind first) with
    | true =>
      rw [if_pos (.inl rfl)]
      exact .pure ⟨rfl, so⟩
    | false =>
      have skips := reads_advanceWhile
        (p := fun kind => !recovery.contains kind && kind != .endOfFile) (by simp) stands.opened
      rw [stands.takeWhile_eq fun kind => !recovery.contains kind, List.takeWhile_cons, stops]
        at skips
      rw [if_neg (by simp [real])]
      apply stands.start
      apply skips.step
      intro last inside
      have closes := inside.complete .error (by decide)
      exact closes.imp fun _ final holds => ⟨holds.1, so.andThen holds.2⟩

end ServiceAnnotator.Events
