import ServiceAnnotator.Proofs.Grammar.Frame.Boundary

/-!
# Names, expressions and mappings in front of other tokens

The rules for the parts of an annotation or of a service read the same in front of other tokens:
they give the same elements and meet the same problems, as long as they leave those tokens alone.
-/

namespace ServiceAnnotator.Grammar

open Parsed (Agrees)

variable {α : Type} [Kinded α] {rest rest' : List α}

/-! ## Names and expressions -/

theorem agrees_expect (follows : Follows rest rest') {kind : Kind} (some : kind ≠ .endOfFile)
    (plain : isPlain kind) (front : List α) :
    Agrees rest rest' (expect kind (front ++ rest)) (expect kind (front ++ rest')) := by
  rw [expect_eq some, expect_eq some]
  exact follows.ite plain (fun _ => follows.tokens 1 front) fun _ => .problem _ front

/-- Recovery stops at an at sign or does not stop at a keyword of a service either. -/
def stopsAlike (stop : KindSet) : Prop :=
  stop.contains .atSign = false → ∀ kind, kind.startsService → stop.contains kind = false

theorem agrees_recover (follows : Follows rest rest') (problem : Problem) {stop : KindSet}
    (alike : stopsAlike stop) (front : List α) :
    Agrees rest rest' (recover problem stop (front ++ rest))
      (recover problem stop (front ++ rest')) := by
  rw [recover_eq, recover_eq]
  have sign : (!stop.contains .atSign) = true →
      ∀ kind, kind.startsService → (!stop.contains kind) = true := by
    simpa [stopsAlike] using alike
  refine Agrees.report ?_ _ _ _
  exact .ofCount (List.takeWhile_prefix _).length_le
    (length_takeWhile_append follows (p := fun kind => !stop.contains kind) sign front)
    (Parsed.wrap .error) (fun agrees => agrees.wrap .error) (fun _ => rfl) (.none front)

/-- A reference by the tokens of a name, the first of which is known to be an identifier. -/
def namedReference (tokens : List α) : Parsed α :=
  if next (tokens.drop 1) = .colon then
    ((Parsed.tokens 2 tokens).andThen (expect .identifier)).wrap .qualifiedNameReference
  else (Parsed.tokens 1 tokens).wrap .simpleNameReference

theorem nameReference_eq (recovery : KindSet) (tokens : List α) :
    nameReference recovery tokens =
      if next tokens = .identifier then namedReference tokens
      else recover (.expected .identifier) recovery tokens := by
  cases tokens with
  | nil => rfl
  | cons first rest => rfl

theorem length_rest_namedReference_lt {tokens : List α} (named : next tokens = .identifier) :
    (namedReference tokens).rest.length < tokens.length := by
  have some := length_sub_one_lt named (by decide)
  unfold namedReference
  split
  · have behind := length_rest_expect_le .identifier (tokens.drop 2)
    simp only [Parsed.rest_wrap, Parsed.rest_andThen, Parsed.rest_tokens, List.length_drop]
      at behind ⊢
    omega
  · simpa using some

theorem agrees_nameReference (follows : Follows rest rest') {recovery : KindSet}
    (alike : stopsAlike recovery) (front : List α) :
    Agrees rest rest' (nameReference recovery (front ++ rest))
      (nameReference recovery (front ++ rest')) := by
  rw [nameReference_eq, nameReference_eq]
  refine follows.ite (by decide) (fun named => ?_) fun _ => agrees_recover follows _ alike front
  cases front with
  | nil => exact .of_length_lt (length_rest_namedReference_lt named)
  | cons first front =>
    refine follows.ite (by decide) (fun _ => Agrees.wrap ?_ _) fun _ => ?_
    · refine (follows.tokens 2 (first :: front)).andThen (composed_expect _ _) fun behind _ => ?_
      exact agrees_expect follows (by decide) (by decide) behind
    · exact (follows.tokens 1 (first :: front)).wrap _

theorem agrees_expression (follows : Follows rest rest') {stop : KindSet}
    (plain : ∀ kind, kind.startsService → stop.contains kind = false) (front : List α) :
    Agrees rest rest' (expression stop (front ++ rest)) (expression stop (front ++ rest')) :=
  .ofCount (runLength_le _ _ _) (runLength_append follows plain 0 front)
    (Parsed.wrap .expression) (fun agrees => agrees.wrap .expression) (fun _ => rfl)
    (.problem _ front)

/-- Kinds that end a listener do not start a service. -/
theorem listenerEnd_plain (kind : Kind) (starts : kind.startsService) :
    listenerEnd.contains kind = false := by
  revert starts
  cases kind <;> decide

theorem agrees_listeners (follows : Follows rest rest') (front : List α) :
    Agrees rest rest' (listeners (front ++ rest)) (listeners (front ++ rest')) := by
  rw [listeners_eq, listeners_eq]
  have bound := runLength_le listenerEnd 0 (front ++ rest)
  by_cases inFront : runLength listenerEnd 0 (front ++ rest) ≤ front.length
  · rw [runLength_append follows listenerEnd_plain 0 front inFront]
    split
    · exact .problem _ front
    · refine (Agrees.wrap (.tokens bound fun _ => rfl) _).andThen (composed_furtherListeners _) ?_
      intro behind split
      refine follows.ite (by decide) (fun comma => ?_) fun _ => .none behind
      refine (follows.tokens 1 behind).andThen (composed_listeners _) fun further split' => ?_
      have shorter : further.length < front.length := by
        have lengthEq := congrArg List.length split
        have lengthEq' := congrArg List.length split'
        simp only [Parsed.rest_wrap, Parsed.rest_tokens, List.length_drop, List.length_append]
          at lengthEq lengthEq'
        omega
      exact agrees_listeners follows further
  · rw [List.length_append] at bound
    rw [if_neg (by omega)]
    apply Agrees.of_length_lt
    refine Nat.lt_of_le_of_lt (composed_furtherListeners _).covers.length_rest_le ?_
    rw [Parsed.rest_wrap, Parsed.rest_tokens, List.length_drop, List.length_append]
    omega
termination_by front.length

/-! ## Mapping constructors -/

/-- Kinds that end the value of a field do not start a service. -/
theorem fieldEnd_plain (kind : Kind) (starts : kind.startsService) :
    fieldEnd.contains kind = false := by
  revert starts
  cases kind <;> decide

/-- Where a rule stands directly in front of the other tokens, it either takes the first of them or
is stuck at both. -/
theorem Follows.agrees_of_stuck (follows : Follows rest rest') (rule : List α → Parsed α)
    (stuck : Kind → Bool) (problems : List α → Parsed α)
    (plain : ∀ kind, kind.startsService → stuck kind = stuck .atSign)
    (empty : Agrees ([] : List α) [] (rule []) (rule []))
    (taken : ∀ first behind, stuck (Kinded.kind first) = false →
      (rule (first :: behind)).rest.length < (first :: behind).length)
    (kept : ∀ first behind, stuck (Kinded.kind first) →
      rule (first :: behind) = problems (first :: behind))
    (agrees : Agrees rest rest' (problems rest) (problems rest')) :
    Agrees rest rest' (rule rest) (rule rest') := by
  cases follows with
  | nil => exact empty
  | @same first _ behind _ sameKind =>
    cases isStuck : stuck (Kinded.kind first) with
    | false => exact .of_length_lt (taken first behind isStuck)
    | true =>
      rw [kept first behind isStuck, kept _ _ (sameKind ▸ isStuck)]
      exact agrees
  | @sign first _ behind _ starts isSign =>
    cases isStuck : stuck (Kinded.kind first) with
    | false => exact .of_length_lt (taken first behind isStuck)
    | true =>
      rw [kept first behind isStuck, kept _ _ (by rw [isSign, ← plain _ starts, isStuck])]
      exact agrees

/-- Kinds at which the fields of a mapping constructor end for want of a closing brace. -/
def endsFields (kind : Kind) : Bool :=
  !(kind == .rightBrace || kind == .comma || fieldStart.contains kind)

/-- Kinds at which a mapping constructor has to be closed behind a field. -/
def endsFurtherFields (kind : Kind) : Bool := !(kind == .comma || fieldStart.contains kind)

theorem agrees_closingBrace (follows : Follows rest rest') (front : List α) :
    Agrees rest rest' (expect .rightBrace (front ++ rest)) (expect .rightBrace (front ++ rest')) :=
  agrees_expect follows (by decide) (by decide) front

theorem agrees_missingField (follows : Follows rest rest') (front : List α) :
    Agrees rest rest'
      ((Parsed.problem .expectedFieldName (front ++ rest)).andThen (expect .rightBrace))
      ((Parsed.problem .expectedFieldName (front ++ rest')).andThen (expect .rightBrace)) :=
  (Agrees.problem _ front).andThen (composed_expect _ _) fun behind _ =>
    agrees_closingBrace follows behind

/-- The rule for fields takes the first token wherever it is not stuck at it. -/
theorem length_rest_fields_lt {first : α} {behind : List α}
    (moves : endsFields (Kinded.kind first) = false) :
    (fields (first :: behind)).val.rest.length < (first :: behind).length := by
  have within := (field first behind).property
  have further := (furtherFields (field first behind).val.rest).property
  have skipped := (fields behind).property
  simp only [endsFields, Bool.not_eq_false', Bool.or_eq_true, beq_iff_eq] at moves
  rw [val_fields_cons, List.length_cons]
  split
  · exact Nat.lt_succ_self _
  · split
    · exact Nat.lt_succ_of_le skipped
    · rw [if_pos (by simp_all), Parsed.rest_andThen]
      omega

theorem agrees_fields_nil (follows : Follows rest rest') :
    Agrees rest rest' (fields rest).val (fields rest').val := by
  refine follows.agrees_of_stuck (fun tokens => (fields tokens).val) endsFields
    (fun tokens => (Parsed.problem .expectedFieldName tokens).andThen (expect .rightBrace))
    ?_ .refl (fun _ _ => length_rest_fields_lt) ?_ (agrees_missingField follows [])
  · intro kind starts
    revert starts
    cases kind <;> decide
  · intro first behind stuck
    simp only [endsFields, Bool.not_eq_true', Bool.or_eq_false_iff, beq_eq_false_iff_ne] at stuck
    rw [val_fields_cons, if_neg stuck.1.1, if_neg stuck.1.2, if_neg (by simp [stuck.2])]

theorem agrees_furtherFields_nil (follows : Follows rest rest') :
    Agrees rest rest' (furtherFields rest).val (furtherFields rest').val := by
  refine follows.agrees_of_stuck (fun tokens => (furtherFields tokens).val) endsFurtherFields
    (expect .rightBrace) ?_ .refl ?_ ?_ (agrees_closingBrace follows [])
  · intro kind starts
    revert starts
    cases kind <;> decide
  · intro first behind moves
    simp only [endsFurtherFields, Bool.not_eq_false', Bool.or_eq_true, beq_iff_eq] at moves
    rw [val_furtherFields_cons]
    split
    · exact Nat.lt_succ_of_le (fields behind).property
    · rename_i notComma
      have starts := moves.resolve_left notComma
      rw [if_pos starts, Parsed.rest_report]
      exact length_rest_fields_lt (by simp [endsFields, starts])
  · intro first behind stuck
    simp only [endsFurtherFields, Bool.not_eq_true', Bool.or_eq_false_iff, beq_eq_false_iff_ne]
      at stuck
    rw [val_furtherFields_cons, if_neg stuck.1, if_neg (by simp [stuck.2])]

omit [Kinded α] in
/-- What a rule leaves in front of a point lies in front of that point. -/
theorem length_le_of_rest_eq {parsed : Parsed α} {front behind : List α}
    (split : parsed.rest = behind ++ rest)
    (bound : parsed.rest.length ≤ (front ++ rest).length) : behind.length ≤ front.length := by
  rw [split, List.length_append, List.length_append] at bound
  omega

mutual

theorem agrees_fields (follows : Follows rest rest') (front : List α) :
    Agrees rest rest' (fields (front ++ rest)).val (fields (front ++ rest')).val := by
  cases front with
  | nil => exact agrees_fields_nil follows
  | cons first front =>
    rw [List.cons_append, List.cons_append, val_fields_cons, val_fields_cons]
    split
    · exact (Agrees.none front).cons (.leaf first)
    · split
      · exact ((agrees_fields follows front).cons _).report _ _ _
      · split
        · refine (agrees_field follows first front).andThen (composed_furtherFields _) ?_
          intro behind split
          have shorter := length_le_of_rest_eq split (field first (front ++ rest)).property
          exact agrees_furtherFields follows behind
        · exact agrees_missingField follows (first :: front)
termination_by (front.length, 0)

theorem agrees_furtherFields (follows : Follows rest rest') (front : List α) :
    Agrees rest rest' (furtherFields (front ++ rest)).val (furtherFields (front ++ rest')).val := by
  cases front with
  | nil => exact agrees_furtherFields_nil follows
  | cons first front =>
    rw [List.cons_append, List.cons_append, val_furtherFields_cons, val_furtherFields_cons]
    split
    · exact (agrees_fields follows front).cons _
    · split
      · exact (agrees_fields follows (first :: front)).report _ _ _
      · exact agrees_closingBrace follows (first :: front)
termination_by (front.length, 1)

theorem agrees_field (follows : Follows rest rest') (first : α) (front : List α) :
    Agrees rest rest' (field first (front ++ rest)).val (field first (front ++ rest')).val := by
  rw [val_field, val_field]
  split
  · exact ((agrees_expression follows fieldEnd_plain front).cons _).wrap _
  · refine follows.ite (by decide) (fun colon => ?_) fun _ => ((Agrees.none front).cons _).wrap _
    refine (Agrees.cons ?_ _).wrap _
    refine (follows.tokens 1 front).andThen (composed_fieldValue _) fun behind split => ?_
    have shorter := length_sub_one_lt colon (by decide)
    have bound := congrArg List.length split
    simp only [Parsed.rest_tokens, List.length_drop, List.length_append] at bound shorter
    have decreases : behind.length < front.length := by omega
    exact agrees_fieldValue follows behind
termination_by (front.length, 2)

theorem agrees_fieldValue (follows : Follows rest rest') (front : List α) :
    Agrees rest rest' (fieldValue (front ++ rest)).val (fieldValue (front ++ rest')).val := by
  rw [val_fieldValue, val_fieldValue]
  refine follows.ite (by decide) (fun brace => Agrees.wrap ?_ _) fun _ =>
    agrees_expression follows fieldEnd_plain front
  refine (follows.tokens 1 front).andThen (composed_fields _) fun behind split => ?_
  have shorter := length_sub_one_lt brace (by decide)
  have bound := congrArg List.length split
  simp only [Parsed.rest_tokens, List.length_drop, List.length_append] at bound shorter
  have decreases : behind.length < front.length := by omega
  exact agrees_fields follows behind
termination_by (front.length, 0)

end

theorem agrees_mapping (follows : Follows rest rest') (front : List α) :
    Agrees rest rest' (mapping? (front ++ rest)) (mapping? (front ++ rest')) := by
  rw [mapping?_eq, mapping?_eq]
  refine follows.ite (by decide) (fun _ => Agrees.wrap ?_ _) fun _ => .none front
  exact (follows.tokens 1 front).andThen (composed_fields _) fun behind _ =>
    agrees_fields follows behind

end ServiceAnnotator.Grammar
