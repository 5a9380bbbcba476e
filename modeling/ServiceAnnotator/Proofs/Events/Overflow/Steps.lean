import ServiceAnnotator.Proofs.Events.Overflow.Follows

/-!
# The steps of a parser with small markers

Reading and reporting go on alike, whatever markers hold. A marker that has wrapped around is told
apart by its node, which opens behind the first events.
-/

namespace ServiceAnnotator.Events

/-- A small marker holds a position if it is one of its own, and else it holds some other. -/
structure Holds (positions position other : Nat) : Prop where
  below : other < positions
  same : position < positions → other = position

variable {β : Type} {positions : Nat}

/-! ## Tokens and reports -/

theorem follows_take : Follows positions Eq take take := by
  refine ⟨fun {parser result behind} any ended => ?_⟩
  cases ended
  refine ⟨any, ⟨_, rfl⟩, fun escapes => escapes.append _,
    fun {other} inStep => .inl ⟨_, _, rfl, rfl, ?_⟩⟩
  have agree : Agree positions (parser.events ++ [.token parser.tokenizer.current])
      (other.events ++ [.token parser.tokenizer.current]) := inStep.agree.concat nofun
  refine ⟨?_, inStep.diagnostics, inStep.markers, ?_, inStep.few⟩
  · exact congrArg Tokenizer.next inStep.tokenizer
  · rw [inStep.tokenizer]
    exact agree

theorem follows_advance : Follows positions Eq advance advance :=
  .peek fun _ => .ite (.pure rfl) follows_take

theorem follows_assert (condition : Bool) :
    Follows positions Eq (assert condition) (assert condition) :=
  .ite (.pure rfl) (.throw _ _)

theorem follows_advanceEndOfFile : Follows positions Eq advanceEndOfFile advanceEndOfFile :=
  .peek fun _ => (follows_assert _).andThen fun _ => follows_take

theorem follows_eat (kind : Kind) : Follows positions Eq (eat kind) (eat kind) :=
  .peek fun _ => .ite (follows_advance.andThen fun _ => .pure rfl) (.pure rfl)

theorem follows_error (problem : Problem) :
    Follows positions Eq (error problem) (error problem) := by
  refine ⟨fun {parser result behind} any ended => ?_⟩
  cases ended
  refine ⟨any, ⟨_, rfl⟩, id, fun {other} inStep => .inl ⟨_, _, rfl, rfl, ?_⟩⟩
  refine ⟨inStep.tokenizer, ?_, inStep.markers, inStep.agree, inStep.few⟩
  dsimp only
  rw [inStep.tokenizer, inStep.diagnostics]

theorem follows_expect (kind : Kind) : Follows positions Eq (expect kind) (expect kind) := by
  refine (follows_eat kind).andThen fun ate => ?_
  cases ate with
  | true => exact .pure rfl
  | false => exact (follows_error _).andThen fun _ => .pure rfl

theorem follows_advanceWhile (p : Kind → Bool) :
    Follows positions Eq (advanceWhile p) (advanceWhile p) := by
  refine .recurring (fun _ => True) (fun again goesOn _ _ => .peek fun kind => ?_) trivial
  cases p kind with
  | true => exact follows_advance.andThen fun _ => goesOn () trivial
  | false => exact .pure rfl

/-! ## Nodes -/

theorem follows_start (some : 0 < positions) :
    Follows positions (fun marker other => Holds positions marker.position other.position) start
      start := by
  refine ⟨fun {parser result behind} any ended => ?_⟩
  cases ended
  have held : parser.events.length % parser.positions = parser.events.length := by
    rw [any, Nat.mod_zero]
  refine ⟨any, ⟨⟨parser.events.length % positions⟩, Nat.mod_lt _ some, ?_⟩,
    fun escapes => escapes.append _, fun {other} inStep => .inl ⟨_, _, rfl, ⟨?_, ?_⟩, ?_⟩⟩
  · intro below
    rw [held] at below ⊢
    exact Nat.mod_eq_of_lt below
  · rw [inStep.few]
    exact Nat.mod_lt _ some
  · intro below
    dsimp only at below ⊢
    have sameLength : other.events.length = parser.events.length := by
      have := inStep.agree.length
      omega
    rw [held] at below ⊢
    rw [inStep.few, sameLength, Nat.mod_eq_of_lt below]
  · exact ⟨inStep.tokenizer, inStep.diagnostics, congrArg (· + 1) inStep.markers,
      inStep.agree.concat fun _ => rfl, inStep.few⟩

/-- A node is complete if its event is found. -/
theorem ends_complete {marker : Marker} {kind former : Kind} {parent? : Option Nat}
    {parser : Parser} (found : parser.events[marker.position]? = some (.start former parent?)) :
    Ends (marker.complete kind) parser ⟨marker.position⟩ { parser with
      events := parser.events.set marker.position (.start kind parent?) ++ [.finish]
      markers := parser.markers - 1 } := by
  rw [Marker.complete]
  refine ends_bind.mpr ⟨parser, parser, rfl, ?_⟩
  rw [found]
  rfl

theorem stops_complete {marker : Marker} {parser : Parser}
    (missing : ¬StartsAt parser.events marker.position) (kind : Kind) :
    Stops (marker.complete kind) parser := by
  have read : Ends get parser parser parser := rfl
  rw [Marker.complete]
  refine .behind read ?_
  split
  · exact absurd ⟨_, _, ‹_›⟩ missing
  · exact ⟨_, rfl⟩

/-- A node that opens behind the first events escapes when it is complete. -/
theorem escapes_complete {events : List Event} {position : Nat} {kind former : Kind}
    {parent? : Option Nat} (found : events[position]? = some (.start former parent?))
    (real : kind ≠ .tombstone) (behind : positions ≤ position) :
    Escapes positions (events.set position (.start kind parent?)) :=
  ⟨position, behind, claimed_set (List.getElem?_eq_some_iff.mp found).1 fun same =>
    real (Event.start.inj same).1⟩

theorem follows_complete {marker other : Marker} {kind : Kind}
    (holds : Holds positions marker.position other.position) (real : kind ≠ .tombstone) :
    Follows positions (fun completed other => Holds positions completed.position other.position)
      (marker.complete kind) (other.complete kind) := by
  refine ⟨fun {parser result behind} any ended => ?_⟩
  by_cases starts : StartsAt parser.events marker.position
  · obtain ⟨former, parent?, found⟩ := starts
    obtain ⟨rfl, rfl⟩ := ended.unique (ends_complete found)
    refine ⟨any, ⟨⟨other.position⟩, holds⟩, fun escapes => (escapes.complete found real).append _,
      fun {parserOther} inStep => ?_⟩
    by_cases startsOther : StartsAt parserOther.events other.position
    · obtain ⟨formerOther, parentOther?, foundOther⟩ := startsOther
      refine .inl ⟨_, _, ends_complete foundOther, holds, inStep.tokenizer, inStep.diagnostics,
        congrArg (· - 1) inStep.markers, .concat ?_ nofun, inStep.few⟩
      refine inStep.agree.set found rfl rfl foundOther rfl rfl holds.below fun inside => ?_
      have below : marker.position < positions :=
        Nat.lt_of_not_le fun behind => inside (escapes_complete found real behind)
      refine ⟨fun escapes => inside (escapes.complete found real), (holds.same below).symm, ?_⟩
      rintro ⟨⟩
      rfl
    · have behind : positions ≤ marker.position := by
        refine Nat.le_of_not_lt fun below => startsOther ?_
        rw [holds.same below]
        exact inStep.agree.startsAt below ⟨former, parent?, found⟩
      exact .inr ⟨stops_complete startsOther kind, (escapes_complete found real behind).append _⟩
  · exact (ended.not_stops (stops_complete starts kind)).elim

/-- A complete node gets a parent if its event is found in front of the parent. -/
theorem ends_precede {completed : CompletedMarker} {kind : Kind} {parent? : Option Nat}
    {parser : Parser}
    (found : parser.opened.events[completed.position]? = some (.start kind parent?))
    (before : completed.position ≤ parser.events.length % parser.positions) :
    Ends completed.precede parser ⟨parser.events.length % parser.positions⟩ { parser.opened with
      events := parser.opened.events.set completed.position (.start kind
        (some (parser.events.length % parser.positions - completed.position))) } := by
  rw [CompletedMarker.precede]
  refine ends_bind.mpr ⟨_, parser.opened, rfl, ?_⟩
  refine ends_bind.mpr ⟨parser.opened, parser.opened, rfl, ?_⟩
  simp only [found, if_neg (Nat.not_lt.mpr before)]
  rfl

theorem stops_precede {completed : CompletedMarker} {parser : Parser}
    (missing : StartsAt parser.opened.events completed.position →
      parser.events.length % parser.positions < completed.position) :
    Stops completed.precede parser := by
  have opens : Ends start parser ⟨parser.events.length % parser.positions⟩ parser.opened := rfl
  have read : Ends get parser.opened parser.opened parser.opened := rfl
  rw [CompletedMarker.precede]
  refine .behind opens (.behind read ?_)
  split
  · rw [if_pos (missing ⟨_, _, ‹_›⟩)]
    exact ⟨_, rfl⟩
  · exact ⟨_, rfl⟩

theorem follows_precede {completed other : CompletedMarker} (some : 0 < positions)
    (holds : Holds positions completed.position other.position) :
    Follows positions (fun marker other => Holds positions marker.position other.position)
      completed.precede other.precede := by
  refine ⟨fun {parser result behind} any ended => ?_⟩
  have held : parser.events.length % parser.positions = parser.events.length := by
    rw [any, Nat.mod_zero]
  have last : parser.opened.events[parser.events.length]? = .some .tombstone := by
    rw [Parser.opened, List.getElem?_append_right (Nat.le_refl _), Nat.sub_self]
    rfl
  by_cases starts : StartsAt parser.opened.events completed.position ∧
      completed.position ≤ parser.events.length % parser.positions
  · obtain ⟨⟨kind, parent?, found⟩, before⟩ := starts
    obtain ⟨rfl, rfl⟩ := ended.unique (ends_precede found before)
    rw [held] at before ⊢
    have escapes (behind : positions ≤ parser.events.length) :=
      escapes_precede found last before behind
    refine ⟨any, ⟨⟨parser.events.length % positions⟩, Nat.mod_lt _ some, Nat.mod_eq_of_lt⟩,
      fun escaped => escapes (Nat.le_of_lt escaped.lt_length), fun {parserOther} inStep => ?_⟩
    -- Unless the parent opens behind the first events, it holds the same position for both.
    have near (below : parser.events.length < positions) :
        parserOther.events.length % positions = parser.events.length ∧
          other.position = completed.position := by
      have sameLength : parserOther.events.length = parser.events.length := by
        have := inStep.agree.length
        omega
      rw [sameLength]
      exact ⟨Nat.mod_eq_of_lt below, holds.same (Nat.lt_of_le_of_lt before below)⟩
    have agree : Agree positions parser.opened.events parserOther.opened.events :=
      inStep.agree.concat fun _ => rfl
    by_cases startsOther : StartsAt parserOther.opened.events other.position ∧
        other.position ≤ parserOther.events.length % parserOther.positions
    · obtain ⟨⟨kindOther, parentOther?, foundOther⟩, beforeOther⟩ := startsOther
      have endedOther := ends_precede foundOther beforeOther
      rw [inStep.few] at endedOther
      refine .inl ⟨_, _, endedOther, ⟨Nat.mod_lt _ some, fun below => (near below).1⟩,
        inStep.tokenizer, inStep.diagnostics, congrArg (· + 1) inStep.markers, ?_, inStep.few⟩
      refine agree.set found rfl rfl foundOther rfl rfl holds.below fun inside => ?_
      have below : parser.events.length < positions :=
        Nat.lt_of_not_le fun behind => inside (escapes behind)
      obtain ⟨lengthEq, positionEq⟩ := near below
      refine ⟨?_, positionEq.symm, ?_⟩
      · intro escaped
        have length := escaped.lt_length
        rw [Parser.opened, List.length_append] at length
        exact inside (escapes (Nat.le_of_lt_succ length))
      · rintro ⟨⟩
        rw [lengthEq, positionEq]
    · refine .inr ⟨stops_precede fun starts => Nat.lt_of_not_le fun before => startsOther
        ⟨starts, before⟩, escapes (Nat.le_of_not_lt fun below => startsOther ?_)⟩
      obtain ⟨lengthEq, positionEq⟩ := near below
      rw [inStep.few, lengthEq, positionEq]
      exact ⟨agree.startsAt (Nat.lt_of_le_of_lt before below) ⟨kind, parent?, found⟩, before⟩
  · refine (ended.not_stops (stops_precede fun found => ?_)).elim
    exact Nat.lt_of_not_le fun before => starts ⟨found, before⟩

/-- A node that is still empty is given up without a trace, unless its marker has wrapped around. -/
theorem ends_abandon (position : Nat) (parser : Parser) :
    Ends (Marker.abandon ⟨position⟩) parser.opened () { parser with events :=
      if position = parser.events.length then parser.events
      else parser.events ++ [.tombstone] } := by
  have lengthEq : parser.opened.events.length = parser.events.length + 1 := by
    simp [Parser.opened]
  rw [Marker.abandon]
  refine ends_bind.mpr ⟨_, parser.opened, rfl, ?_⟩
  rw [lengthEq]
  refine congrArg (fun last : Parser => some (Except.ok ((), last))) ?_
  simp [Parser.opened]

/-- A node that was given up makes no difference. -/
theorem InStep.abandon {other : Parser} (inStep : InStep positions parser other) :
    InStep positions parser { other with events :=
      if other.events.length % other.positions = other.events.length then other.events
      else other.events ++ [.tombstone] } := by
  refine ⟨inStep.tokenizer, inStep.diagnostics, inStep.markers, ?_, inStep.few⟩
  rw [inStep.few]
  dsimp only
  split
  · exact inStep.agree
  · rename_i wrapped
    exact inStep.agree.givenUp (Nat.le_of_not_lt fun below => wrapped (Nat.mod_eq_of_lt below))

end ServiceAnnotator.Events
