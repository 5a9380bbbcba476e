import ServiceAnnotator.Events.Rules
import ServiceAnnotator.Proofs.Events.Overflow.Steps

/-!
# The rules with small markers

Every rule of the grammar follows with small markers what it does with markers that hold any
position.
-/

namespace ServiceAnnotator.Events

variable {positions : Nat} {parser behind : Parser}

/-! ## Runs of tokens -/

theorem follows_balanced (stop : KindSet) (depth : Nat) (consumed : Bool) :
    Follows positions Eq (balanced stop depth consumed) (balanced stop depth consumed) := by
  refine .recurring (fun _ => True) (fun again goesOn argument _ => .peek fun kind => ?_)
    trivial
  have further (depth : Nat) : Follows positions Eq (do advance; again (depth, true))
      (do advance; again (depth, true)) := follows_advance.andThen fun _ => goesOn _ trivial
  refine .ite (.pure rfl) ?_
  cases Grammar.bracket kind with
  | opens => exact further _
  | closes => exact .ite (.pure rfl) (further _)
  | neither => exact further _

/-- A run of tokens ends at once, as the next token decides, or goes on behind a token. -/
theorem balanced_cases {stop : KindSet} {depth : Nat} {consumed result : Bool}
    (ended : Ends (balanced stop depth consumed) parser result behind) :
    (∀ other : Parser, other.tokenizer = parser.tokenizer →
      Ends (balanced stop depth consumed) other consumed other) ∨
    ∃ depth between, between.tokenizer.ahead < parser.tokenizer.ahead ∧
      Ends (balanced stop depth true) between result behind := by
  rw [balanced, ends_recurring] at ended
  obtain ⟨kind, between, peeked, ended⟩ := ends_bind.mp ended
  cases peeked
  have further {depth : Nat} (ended : Ends (do advance; parser.onward (balanced stop depth true))
      parser result behind) : ∃ depth between,
        between.tokenizer.ahead < parser.tokenizer.ahead ∧
          Ends (balanced stop depth true) between result behind := by
    obtain ⟨_, between, _, goesOn⟩ := ends_bind.mp ended
    exact ⟨depth, between, goesOn.of_onward⟩
  by_cases ends : parser.tokenizer.kind = .endOfFile ∨
      depth = 0 ∧ stop.contains parser.tokenizer.kind
  · left
    intro other same
    rw [balanced, ends_recurring]
    refine ends_bind.mpr ⟨_, other, rfl, ?_⟩
    rw [same, if_pos ends]
    rfl
  · rw [if_neg ends] at ended
    cases bracketEq : Grammar.bracket parser.tokenizer.kind with
    | opens =>
      rw [bracketEq] at ended
      exact .inr (further ended)
    | neither =>
      rw [bracketEq] at ended
      exact .inr (further ended)
    | closes =>
      rw [bracketEq] at ended
      by_cases outside : depth = 0
      · left
        intro other same
        rw [balanced, ends_recurring]
        refine ends_bind.mpr ⟨_, other, rfl, ?_⟩
        rw [same, if_neg ends, bracketEq]
        simp only [if_pos outside]
        rfl
      · simp only [if_neg outside] at ended
        exact .inr (further ended)

/-- Once a token was consumed this is not forgotten. -/
theorem consumed_of_balanced {stop : KindSet} {depth : Nat} {result : Bool}
    (ended : Ends (balanced stop depth true) parser result behind) : result = true := by
  induction ahead : parser.tokenizer.ahead using Nat.strongRecOn generalizing parser depth with
  | _ most ih =>
    rcases balanced_cases ended with atOnce | ⟨depth, between, fewer, goesOn⟩
    · exact (ended.unique (atOnce parser rfl)).1
    · exact ih _ (ahead ▸ fewer) goesOn rfl

/-- A run without a token changes nothing, and is one from any state in front of the same tokens. -/
theorem ends_of_balanced_false {stop : KindSet}
    (ended : Ends (balanced stop 0 false) parser false behind) :
    behind = parser ∧ ∀ other : Parser, other.tokenizer = parser.tokenizer →
      Ends (balanced stop 0 false) other false other := by
  rcases balanced_cases ended with atOnce | ⟨_, _, _, goesOn⟩
  · exact ⟨(ended.unique (atOnce parser rfl)).2, atOnce⟩
  · cases consumed_of_balanced goesOn

theorem follows_block (unclosed : Problem) :
    Follows positions Eq (block unclosed) (block unclosed) := by
  refine .peek fun _ => (follows_assert _).andThen fun _ => follows_advance.andThen fun _ =>
    (follows_balanced _ _ _).discard.andThen fun _ => (follows_eat _).andThen fun ate => ?_
  exact .ite (.pure rfl) (follows_error _)

/-! ## Recovery -/

section

variable (some : 0 < positions)

include some

theorem follows_errorAndBump (problem : Problem) :
    Follows positions Eq (errorAndBump problem) (errorAndBump problem) :=
  (follows_start some).bind fun holds => (follows_error _).andThen fun _ =>
    follows_advance.andThen fun _ => (follows_complete holds (by decide)).discard

theorem follows_errorRecover (problem : Problem) (recovery : KindSet) :
    Follows positions Eq (errorRecover problem recovery) (errorRecover problem recovery) := by
  refine (follows_error _).andThen fun _ => .peek fun _ => .ite (.pure rfl) ?_
  exact (follows_start some).bind fun holds => (follows_advanceWhile _).andThen fun _ =>
    (follows_complete holds (by decide)).discard

/-! ## Names and expressions -/

theorem follows_nameReference (recovery : KindSet) :
    Follows positions Eq (nameReference recovery) (nameReference recovery) := by
  refine .peek fun _ => .ite ?_ (follows_errorRecover some _ _)
  refine (follows_start some).bind fun holds => follows_advance.andThen fun _ =>
    (follows_eat _).andThen fun _ => .ite ?_ (follows_complete holds (by decide)).discard
  exact (follows_expect _).discard.andThen fun _ => (follows_complete holds (by decide)).discard

omit some in
theorem follows_close {marker other : Marker} {kind : Kind}
    (holds : Holds positions marker.position other.position) (real : kind ≠ .tombstone) :
    Follows positions Eq (do discard (marker.complete kind); return true)
      (do discard (other.complete kind); return true) :=
  (follows_complete holds real).discard.bind fun _ => .pure rfl

/-- An expression takes a token, or its node is given up. -/
theorem follows_expression (stop : KindSet) :
    Follows positions Eq (expression stop) (expression stop) := by
  refine ⟨fun {parser result behind} any ended => ?_⟩
  obtain ⟨marker, opened, started, ended⟩ := ends_bind.mp ended
  obtain ⟨consumed, between, ran, ended⟩ := ends_bind.mp ended
  cases consumed with
  | true =>
    have starts := (follows_start some).wherever any started
    have follows : Follows positions Eq (balanced stop 0 false) (balanced stop 0 false) :=
      follows_balanced stop 0 false
    have runs := follows.wherever starts.any ran
    refine starts.bind fun holds => runs.bind ?_
    rintro _ rfl
    exact (follows_close holds (by decide)).wherever runs.any ended
  | false =>
    cases started
    obtain ⟨rfl, again⟩ := ends_of_balanced_false ran
    rw [if_neg Bool.false_ne_true] at ended
    obtain ⟨_, last, abandoned, ended⟩ := ends_bind.mp ended
    have lastEq := (abandoned.unique (ends_abandon _ parser)).2
    rw [if_pos (by rw [any, Nat.mod_zero])] at lastEq
    rw [lastEq] at ended
    have reports : Follows positions Eq (do error .expectedExpression; return false)
        (do error .expectedExpression; return false) := (follows_error _).andThen fun _ => .pure rfl
    have reported := reports.wherever any ended
    refine ⟨reported.any, reported.possible, reported.escapes, fun {other} inStep => ?_⟩
    have abandonedOther := ends_abandon (other.events.length % other.positions) other
    have openedOther : Ends start other ⟨other.events.length % other.positions⟩ other.opened := rfl
    have ranOther := again other.opened inStep.tokenizer
    refine (reported.inStep inStep.abandon).imp ?_ ?_
    · rintro ⟨resultOther, behindOther, endedOther, same, inStep⟩
      exact ⟨resultOther, behindOther, ends_bind.mpr ⟨_, _, openedOther, ends_bind.mpr ⟨_, _,
        ranOther, ends_bind.mpr ⟨_, _, abandonedOther, endedOther⟩⟩⟩, same, inStep⟩
    · rintro ⟨stops, escapes⟩
      exact ⟨.behind openedOther (.behind ranOther (.behind abandonedOther stops)), escapes⟩

theorem follows_listeners : Follows positions Eq listeners listeners := by
  refine .recurring (fun _ => True) (fun again goesOn _ _ => ?_) trivial
  refine (follows_expression some _).andThen fun _ => .ite ?_ (.pure rfl)
  exact (follows_eat _).andThen fun _ => .ite (goesOn _ trivial) (.pure rfl)

theorem follows_expressionList : Follows positions Eq expressionList expressionList :=
  (follows_start some).bind fun holds => (follows_listeners some).andThen fun _ =>
    (follows_complete holds (by decide)).discard

/-! ## Mapping constructors -/

section

variable {nested action : Action Unit} (nests : Follows positions Eq nested nested)

include nests

theorem follows_fieldValue : Follows positions Eq (fieldValue nested) (fieldValue nested) :=
  .peek fun _ => .ite nests (follows_expression some _).discard

theorem follows_valueBehindKey :
    Follows positions Eq (valueBehindKey nested) (valueBehindKey nested) :=
  (follows_eat _).andThen fun _ => .ite (follows_fieldValue some nests) (.pure rfl)

theorem follows_field : Follows positions Eq (field nested) (field nested) := by
  refine .peek fun _ => .ite ?_ (.ite ?_ ((follows_error _).andThen fun _ => .pure rfl))
  · exact (follows_start some).bind fun holds => follows_advance.andThen fun _ =>
      (follows_expression some _).discard.andThen fun _ =>
        follows_close holds (by decide)
  · exact (follows_start some).bind fun holds => follows_advance.andThen fun _ =>
      (follows_valueBehindKey some nests).andThen fun _ =>
        follows_close holds (by decide)

omit some nests in
theorem follows_furtherFields (follows : Follows positions Eq action action) :
    Follows positions Eq (furtherFields action) (furtherFields action) := by
  refine (follows_eat _).andThen fun _ => .ite follows (.peek fun _ => .ite ?_ (.pure rfl))
  exact (follows_expect _).discard.andThen fun _ => follows

theorem follows_fields : Follows positions Eq (fields nested) (fields nested) := by
  refine .recurring (fun _ => True) (fun again goesOn _ _ => .peek fun _ => ?_) trivial
  refine .ite (.pure rfl) (.ite ?_ ?_)
  · exact (follows_errorAndBump some _).andThen fun _ => goesOn _ trivial
  · exact (follows_field some nests).andThen fun _ =>
      .ite (follows_furtherFields (goesOn _ trivial)) (.pure rfl)

end

theorem follows_mapping : Follows positions Eq mapping mapping := by
  refine .recurring (fun _ => True) (fun nested nests _ _ => ?_) trivial
  exact (follows_start some).bind fun holds => .peek fun _ => (follows_assert _).andThen fun _ =>
    follows_advance.andThen fun _ => (follows_fields some (nests _ trivial)).andThen fun _ =>
      (follows_expect _).discard.andThen fun _ => (follows_complete holds (by decide)).discard

/-! ## Metadata -/

theorem follows_optionalMapping : Follows positions Eq optionalMapping optionalMapping :=
  .peek fun _ => .ite (follows_mapping some) (.pure rfl)

theorem follows_attachment : Follows positions Eq attachment attachment :=
  (follows_start some).bind fun holds => follows_advance.andThen fun _ =>
    (follows_nameReference some _).andThen fun _ => (follows_optionalMapping some).andThen fun _ =>
      (follows_complete holds (by decide)).discard

theorem follows_attachments : Follows positions Eq attachments attachments := by
  refine .recurring (fun _ => True) (fun again goesOn _ _ => .peek fun _ => ?_) trivial
  exact .ite ((follows_attachment some).andThen fun _ => goesOn _ trivial) (.pure rfl)

theorem follows_documentation : Follows positions Eq documentation documentation :=
  .peek fun _ => .ite ((follows_start some).bind fun holds =>
    (follows_advanceWhile _).andThen fun _ => (follows_complete holds (by decide)).discard)
      (.pure rfl)

/-- A marker of metadata that is complete, if there is any. -/
def HoldsAny (positions : Nat) : Option CompletedMarker → Option CompletedMarker → Prop :=
  Option.Rel fun completed other => Holds positions completed.position other.position

theorem follows_metadata : Follows positions (HoldsAny positions) metadata metadata := by
  refine .peek fun _ => .ite ?_ (.pure .none)
  exact (follows_start some).bind fun holds => (follows_documentation some).andThen fun _ =>
    (follows_attachments some).andThen fun _ =>
      (follows_complete holds (by decide)).bind fun same => .pure (.some same)

/-! ## Declarations -/

omit some in
theorem follows_importedName : Follows positions Eq importedName importedName :=
  (follows_balanced _ _ _).andThen fun _ => .ite (.pure rfl) (follows_error _)

theorem follows_importDeclaration :
    Follows positions Eq importDeclaration importDeclaration :=
  (follows_start some).bind fun holds => follows_advance.andThen fun _ =>
    follows_importedName.andThen fun _ => (follows_expect _).discard.andThen fun _ =>
      (follows_complete holds (by decide)).discard

/-- A declaration has the same kind for both, which is the kind of a node. -/
def SameKind (kind other : Kind) : Prop := kind = other ∧ kind ≠ .tombstone

theorem follows_plainRun {kind : Kind} (real : kind ≠ .tombstone) (depth : Nat) :
    Follows positions SameKind (plainRun kind depth) (plainRun kind depth) := by
  refine .recurring (fun argument => argument.1 ≠ .tombstone)
    (fun again goesOn argument real => .peek fun next => ?_) real
  obtain ⟨kind, depth⟩ := argument
  have further {kind : Kind} (depth : Nat) (real : kind ≠ .tombstone) :
      Follows positions SameKind (do advance; again (kind, depth))
        (do advance; again (kind, depth)) := follows_advance.andThen fun _ => goesOn _ real
  refine .ite ((follows_error _).andThen fun _ => .pure ⟨rfl, real⟩) ?_
  refine .ite (follows_advance.andThen fun _ => .pure ⟨rfl, real⟩) ?_
  refine .ite (further depth (by decide)) ?_
  cases Grammar.bracket next with
  | opens => exact further _ real
  | neither => exact further _ real
  | closes =>
    refine .ite ((follows_errorAndBump some _).andThen fun _ => goesOn _ real) ?_
    refine follows_advance.andThen fun _ => .peek fun _ => .ite (.pure ⟨rfl, real⟩) (goesOn _ real)

omit some in
theorem follows_segments : Follows positions Eq segments segments := by
  refine .recurring (fun _ => True) (fun again goesOn _ _ => ?_) trivial
  refine (follows_eat _).andThen fun _ => .ite ?_ (.pure rfl)
  exact (follows_eat _).andThen fun _ => goesOn _ trivial

theorem follows_attachPoint : Follows positions Eq attachPoint attachPoint :=
  .peek fun _ => .ite ((follows_start some).bind fun holds => follows_segments.andThen fun _ =>
    (follows_complete holds (by decide)).discard) (.ite follows_advance (.pure rfl))

theorem follows_serviceType : Follows positions Eq serviceType serviceType :=
  .peek fun _ => .ite (follows_nameReference some _) (.pure rfl)

theorem follows_listenerClause : Follows positions Eq listenerClause listenerClause :=
  (follows_expect _).andThen fun _ => .ite (follows_expressionList some) (.pure rfl)

theorem follows_serviceBody : Follows positions Eq serviceBody serviceBody :=
  .peek fun _ => .ite ((follows_start some).bind fun holds => (follows_block _).andThen fun _ =>
    (follows_complete holds (by decide)).discard) (follows_error _)

theorem follows_service : Follows positions SameKind service service :=
  follows_advance.andThen fun _ => .peek fun _ => .ite (follows_plainRun some (by decide) _)
    ((follows_serviceType some).andThen fun _ => (follows_attachPoint some).andThen fun _ =>
      (follows_listenerClause some).andThen fun _ => (follows_serviceBody some).andThen fun _ =>
        .pure ⟨rfl, by decide⟩)

theorem follows_declaration : Follows positions SameKind declaration declaration := by
  refine .peek fun next => .ite (follows_service some) ?_
  cases found : Grammar.declarationKind? next with
  | none => exact (follows_error _).andThen fun _ => .pure ⟨rfl, by decide⟩
  | some kind =>
    refine follows_plainRun some ?_ 0
    rintro rfl
    exact Grammar.declarationKind?_ne_tombstone next found

theorem follows_openMember :
    Follows positions (fun marker other => Holds positions marker.position other.position)
      openMember openMember := by
  refine (follows_metadata some).bind fun {metadata other} holds => ?_
  cases holds with
  | none => exact follows_start some
  | some holds => exact follows_precede some holds

theorem follows_member : Follows positions Eq member member :=
  (follows_openMember some).bind fun holds => (follows_advanceWhile _).andThen fun _ =>
    (follows_declaration some).bind fun {_ _} ⟨same, real⟩ =>
      same ▸ (follows_complete holds real).discard

/-! ## Modules -/

theorem follows_items : Follows positions Eq items items := by
  refine .recurring (fun _ => True) (fun again goesOn _ _ => .peek fun _ => ?_) trivial
  have bumps (problem : Problem) : Follows positions Eq (do errorAndBump problem; again ())
      (do errorAndBump problem; again ()) :=
    (follows_errorAndBump some problem).andThen fun _ => goesOn _ trivial
  refine .ite (.pure rfl) (.ite ?_ (.ite ?_ (.ite (bumps _) (bumps _))))
  · exact (follows_importDeclaration some).andThen fun _ => goesOn _ trivial
  · exact (follows_member some).andThen fun _ => goesOn _ trivial

theorem follows_modulePart : Follows positions Eq modulePart modulePart :=
  (follows_start some).bind fun holds => (follows_items some).andThen fun _ =>
    follows_advanceEndOfFile.andThen fun _ => (follows_complete holds (by decide)).discard

end

end ServiceAnnotator.Events
