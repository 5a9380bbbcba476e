import ServiceAnnotator.Proofs.Grammar.Frame.Metadata

/-!
# Declarations in front of other tokens

A declaration of any kind reads the same in front of other tokens. This is so even where recovery
ends it early: a service that is cut short by the keyword of the next declaration is cut short by an
at sign in the same way.
-/

namespace ServiceAnnotator.Grammar

open Parsed (Agrees)

variable {α : Type} [Kinded α] {rest rest' : List α}

/-- Two readings agree, and what was read is of the same kind. -/
def AgreesWithKind (rest rest' : List α) (left right : Kind × Parsed α) : Prop :=
  ∀ front, left.2.rest = front ++ rest →
    right.1 = left.1 ∧ left.2.Same right.2 (front ++ rest')

namespace AgreesWithKind

omit [Kinded α]

theorem of_agrees {left right : Parsed α} (kind : Kind) (agrees : Agrees rest rest' left right) :
    AgreesWithKind rest rest' (kind, left) (kind, right) :=
  fun front restEq => ⟨rfl, agrees front restEq⟩

theorem of_length_lt {left right : Kind × Parsed α} (beyond : left.2.rest.length < rest.length) :
    AgreesWithKind rest rest' left right := by
  intro front restEq
  rw [restEq, List.length_append] at beyond
  omega

theorem map {left right : Kind × Parsed α} (agrees : AgreesWithKind rest rest' left right)
    {make make' : Parsed α → Parsed α} (rest_make : ∀ parsed, (make parsed).rest = parsed.rest)
    (same : ∀ front, left.2.Same right.2 front → (make left.2).Same (make' right.2) front) :
    AgreesWithKind rest rest' (left.map id make) (right.map id make') := by
  intro front restEq
  obtain ⟨sameKind, sameParsed⟩ := agrees front ((rest_make left.2).symm.trans restEq)
  exact ⟨sameKind, same _ sameParsed⟩

theorem cons {left right : Kind × Parsed α} (agrees : AgreesWithKind rest rest' left right)
    (element : Tree α) :
    AgreesWithKind rest rest' (left.map id (Parsed.cons element))
      (right.map id (Parsed.cons element)) :=
  agrees.map (fun _ => rfl) fun _ same => same.cons element

end AgreesWithKind

/-- The path of an import: a run of tokens up to a semicolon or the next import. -/
def importPath (tokens : List α) : Parsed α :=
  if runLength (.ofList [.semicolon, .importKw]) 0 tokens = 0 then
    .problem .expectedModuleName tokens
  else Parsed.tokens (runLength (.ofList [.semicolon, .importKw]) 0 tokens) tokens

theorem importDeclaration_eq (keyword : α) (tokens : List α) :
    importDeclaration keyword tokens =
      (((importPath tokens).andThen (expect .semicolon)).cons (.leaf keyword)).wrap
        .importDeclaration := rfl

theorem composed_importPath (tokens : List α) : (importPath tokens).Composed tokens := by
  unfold importPath
  split
  · exact .problem _ _
  · exact .tokens _ _

theorem agrees_importPath (follows : Follows rest rest') (front : List α) :
    Agrees rest rest' (importPath (front ++ rest)) (importPath (front ++ rest')) := by
  have plain : ∀ kind : Kind, kind.startsService →
      (KindSet.ofList [.semicolon, .importKw]).contains kind = false := by
    intro kind starts
    revert starts
    cases kind <;> decide
  exact .ofCount (runLength_le _ _ _) (runLength_append follows plain 0 front) id
    (fun agrees => agrees) (fun _ => rfl) (.problem _ front)

theorem agrees_importDeclaration (follows : Follows rest rest') (keyword : α) (front : List α) :
    Agrees rest rest' (importDeclaration keyword (front ++ rest))
      (importDeclaration keyword (front ++ rest')) := by
  rw [importDeclaration_eq, importDeclaration_eq]
  refine (Agrees.cons ?_ _).wrap _
  exact (agrees_importPath follows front).andThen (composed_expect _ _) fun behind _ =>
    agrees_expect follows (by decide) (by decide) behind

/-! ## Runs of tokens -/

theorem endsDeclaration_of_startsService {kind : Kind} (starts : kind.startsService) :
    endsDeclaration kind = true := by
  revert starts
  cases kind <;> decide

theorem Follows.endsDeclaration_eq (follows : Follows rest rest') :
    endsDeclaration (next rest') = endsDeclaration (next rest) := by
  cases follows with
  | nil => rfl
  | same _ _ sameKind => rw [next, next, sameKind]
  | sign _ _ starts isSign =>
    rw [next, next, isSign, endsDeclaration_of_startsService starts]
    rfl

theorem agrees_plainRun (follows : Follows rest rest') (kind : Kind) (depth : Nat)
    (front : List α) :
    AgreesWithKind rest rest' (plainRun kind depth (front ++ rest))
      (plainRun kind depth (front ++ rest')) := by
  induction front generalizing kind depth with
  | nil =>
    cases follows with
    | nil => exact fun front restEq => ⟨rfl, rfl, rfl, restEq⟩
    | same | sign =>
      refine .of_length_lt (Nat.lt_of_le_of_lt (length_rest_plainRun_le _ _ _) ?_)
      simp
  | cons token front ih =>
    rw [List.cons_append, List.cons_append, plainRun_cons, plainRun_cons,
      (follows.append_left front).endsDeclaration_eq]
    split
    · exact .of_agrees _ ((Agrees.none front).cons (.leaf token))
    · split
      · exact (ih _ _).cons _
      · split
        · exact (ih _ _).cons _
        · split
          · exact (ih _ _).map (fun _ => rfl) fun _ same => (same.cons _).report _ _ _
          · split
            · exact .of_agrees _ ((Agrees.none front).cons (.leaf token))
            · exact (ih _ _).cons _
        · exact (ih _ _).cons _

/-! ## Services -/

theorem pathLength_le (tokens : List α) : pathLength tokens ≤ tokens.length := by
  fun_induction pathLength tokens with
  | case1 => simp
  | case2 => simp
  | case3 => simp
  | case4 slash name tokens _ _ ih => simp only [List.length_cons]; omega
  | case5 slash name tokens _ _ ih => simp only [List.length_cons] at ih ⊢; omega
  | case6 => simp

theorem pathLength_append (follows : Follows rest rest') (front : List α)
    (inFront : pathLength (front ++ rest) ≤ front.length) :
    pathLength (front ++ rest') = pathLength (front ++ rest) := by
  match front with
  | [] =>
    have sameNext := follows.next_eq_iff .slash (by decide)
    rw [List.nil_append, List.length_nil] at inFront
    cases follows with
    | nil => rfl
    | same | sign =>
      rw [pathLength_cons] at inFront
      rw [List.nil_append, List.nil_append, pathLength_cons, pathLength_cons]
      split at inFront
      · split at inFront <;> omega
      · rename_i noSlash
        rw [next, next] at sameNext
        rw [if_neg noSlash, if_neg (fun slash => noSlash (sameNext.mp slash))]
  | slash :: front =>
    rw [List.cons_append, pathLength_cons, List.length_cons] at inFront
    rw [List.cons_append, List.cons_append, pathLength_cons, pathLength_cons]
    split at inFront
    · rename_i isSlash
      rw [if_pos isSlash, if_pos isSlash]
      have sameNext := (follows.append_left front).next_eq_iff .identifier (by decide)
      split at inFront
      · rename_i named
        rw [if_pos named, if_pos (sameNext.mpr named)]
        cases front with
        | nil =>
          rw [List.length_nil] at inFront
          omega
        | cons name front =>
          rw [List.cons_append, List.drop_succ_cons, List.drop_zero, List.length_cons] at inFront
          rw [List.cons_append, List.cons_append, List.drop_succ_cons, List.drop_zero,
            List.drop_succ_cons, List.drop_zero, pathLength_append follows front (by omega)]
      · rename_i unnamed
        rw [if_neg unnamed, if_neg (fun named => unnamed (sameNext.mp named)),
          pathLength_append follows front (by omega)]
    · rename_i noSlash
      rw [if_neg noSlash, if_neg noSlash]

theorem agrees_attachPoint (follows : Follows rest rest') (front : List α) :
    Agrees rest rest' (attachPoint (front ++ rest)) (attachPoint (front ++ rest')) := by
  refine follows.ite (by decide) (fun _ => Agrees.wrap ?_ _) fun _ => ?_
  · exact .tokens (pathLength_le _) (pathLength_append follows front)
  · exact follows.ite (by decide) (fun _ => follows.tokens 1 front) fun _ => .none front

theorem agrees_serviceType (follows : Follows rest rest') (front : List α) :
    Agrees rest rest' (serviceType (front ++ rest)) (serviceType (front ++ rest')) := by
  have alike : stopsAlike (.ofList [.onKw, .leftBrace]) := by
    intro _ kind starts
    revert starts
    cases kind <;> decide
  exact follows.ite (by decide) (fun _ => agrees_nameReference follows alike front)
    fun _ => .none front

theorem agrees_listenerClause (follows : Follows rest rest') (front : List α) :
    Agrees rest rest' (listenerClause (front ++ rest)) (listenerClause (front ++ rest')) := by
  refine follows.ite (by decide) (fun _ => ?_) fun _ => .problem _ front
  refine (follows.tokens 1 front).andThen ((composed_listeners _).wrap _) fun behind _ => ?_
  exact (agrees_listeners follows behind).wrap _

theorem agrees_bodyEnd (follows : Follows rest rest') (front : List α) :
    Agrees rest rest' (bodyEnd (front ++ rest)) (bodyEnd (front ++ rest')) :=
  follows.ite (by decide) (fun _ => follows.tokens 1 front) fun _ => .problem _ front

/-- The opening brace of a body and the tokens behind it, up to the closing brace. -/
def bodyFront (tokens : List α) : Parsed α :=
  Parsed.tokens (1 + runLength .empty 0 (tokens.drop 1)) tokens

theorem serviceBody_eq (tokens : List α) :
    serviceBody tokens =
      if next tokens = .leftBrace then ((bodyFront tokens).andThen bodyEnd).wrap .serviceBody
      else .problem .expectedServiceBody tokens := rfl

theorem agrees_bodyFront (follows : Follows rest rest') (front : List α) :
    Agrees rest rest' (bodyFront (front ++ rest)) (bodyFront (front ++ rest')) := by
  cases front with
  | nil =>
    cases follows with
    | nil => exact .refl
    | same | sign =>
      apply Agrees.of_length_lt
      rw [bodyFront, Parsed.rest_tokens, List.nil_append, List.length_drop, List.length_cons]
      omega
  | cons open_ front =>
    have bound := runLength_le .empty 0 (front ++ rest)
    refine .tokens ?_ ?_
    · simp only [List.cons_append, List.drop_succ_cons, List.drop_zero, List.length_cons]
      omega
    · intro inFront
      rw [List.cons_append, List.drop_succ_cons, List.drop_zero, List.length_cons] at inFront
      rw [List.cons_append, List.cons_append, List.drop_succ_cons, List.drop_zero,
        List.drop_succ_cons, List.drop_zero,
        runLength_append follows (fun _ _ => rfl) 0 front (by omega)]

theorem agrees_serviceBody (follows : Follows rest rest') (front : List α) :
    Agrees rest rest' (serviceBody (front ++ rest)) (serviceBody (front ++ rest')) := by
  rw [serviceBody_eq, serviceBody_eq]
  refine follows.ite (by decide) (fun _ => Agrees.wrap ?_ _) fun _ => .problem _ front
  exact (agrees_bodyFront follows front).andThen (composed_bodyEnd _) fun behind _ =>
    agrees_bodyEnd follows behind

/-- What stands between the keyword of a service and its body. -/
def serviceHeader (tokens : List α) : Parsed α :=
  ((serviceType tokens).andThen attachPoint).andThen listenerClause

theorem composed_serviceHeader (tokens : List α) : (serviceHeader tokens).Composed tokens :=
  ((composed_serviceType tokens).andThen (composed_attachPoint _)).andThen
    (composed_listenerClause _)

theorem agrees_serviceHeader (follows : Follows rest rest') (front : List α) :
    Agrees rest rest' (serviceHeader (front ++ rest)) (serviceHeader (front ++ rest')) := by
  refine Agrees.andThen ?_ (composed_listenerClause _) fun behind _ =>
    agrees_listenerClause follows behind
  exact (agrees_serviceType follows front).andThen (composed_attachPoint _) fun behind _ =>
    agrees_attachPoint follows behind

/-- A service behind its keyword that does not turn out to be a class. -/
def serviceParts (tokens : List α) : Parsed α := (serviceHeader tokens).andThen serviceBody

theorem service_eq (keyword : α) (tokens : List α) :
    service keyword tokens =
      if next tokens = .classKw then
        (plainRun .classDefinition 0 tokens).map id (Parsed.cons (.leaf keyword))
      else (.serviceDeclaration, (serviceParts tokens).cons (.leaf keyword)) := rfl

theorem composed_serviceParts (tokens : List α) : (serviceParts tokens).Composed tokens :=
  (composed_serviceHeader tokens).andThen (composed_serviceBody _)

theorem agrees_serviceParts (follows : Follows rest rest') (front : List α) :
    Agrees rest rest' (serviceParts (front ++ rest)) (serviceParts (front ++ rest')) :=
  (agrees_serviceHeader follows front).andThen (composed_serviceBody _) fun behind _ =>
    agrees_serviceBody follows behind

theorem agrees_service (follows : Follows rest rest') (keyword : α) (front : List α) :
    AgreesWithKind rest rest' (service keyword (front ++ rest))
      (service keyword (front ++ rest')) := by
  rw [service_eq, service_eq]
  have sameNext := (follows.append_left front).next_eq_iff .classKw (by decide)
  by_cases isClass : next (front ++ rest) = .classKw
  · rw [if_pos isClass, if_pos (sameNext.mpr isClass)]
    exact (agrees_plainRun follows _ _ front).cons _
  · rw [if_neg isClass, if_neg (fun other => isClass (sameNext.mp other))]
    exact .of_agrees _ ((agrees_serviceParts follows front).cons _)

/-! ## Declarations -/

/-- Kinds that decide what a declaration is. -/
def startsDeclaration (kind : Kind) : Bool := kind == .serviceKw || (declarationKind? kind).isSome

theorem declaration_of_not_starts {first : α} (behind : List α)
    (stuck : ¬startsDeclaration (Kinded.kind first)) :
    declaration (first :: behind) = (.error, .problem .expectedDeclaration (first :: behind)) := by
  simp only [startsDeclaration, Bool.or_eq_true, beq_iff_eq, not_or, Bool.not_eq_true,
    Option.isSome_eq_false_iff, Option.isNone_iff_eq_none] at stuck
  rw [declaration, if_neg stuck.1, stuck.2]

theorem agrees_declaration (follows : Follows rest rest') (front : List α) :
    AgreesWithKind rest rest' (declaration (front ++ rest)) (declaration (front ++ rest')) := by
  cases front with
  | nil =>
    cases follows with
    | nil => exact .of_agrees _ .refl
    | @same first first' behind behind' sameKind =>
      by_cases starts : startsDeclaration (Kinded.kind first)
      · exact .of_length_lt (length_rest_declaration_lt (by simpa [startsDeclaration] using starts))
      · rw [List.nil_append, List.nil_append, declaration_of_not_starts behind starts,
          declaration_of_not_starts behind' (sameKind ▸ starts)]
        exact .of_agrees _ (.problem _ [])
    | @sign first first' behind behind' _ isSign =>
      by_cases starts : startsDeclaration (Kinded.kind first)
      · exact .of_length_lt (length_rest_declaration_lt (by simpa [startsDeclaration] using starts))
      · rw [List.nil_append, List.nil_append, declaration_of_not_starts behind starts,
          declaration_of_not_starts behind' (by rw [isSign]; decide)]
        exact .of_agrees _ (.problem _ [])
  | cons first front =>
    rw [List.cons_append, List.cons_append, declaration, declaration]
    split
    · exact agrees_service follows first front
    · split
      · exact agrees_plainRun follows _ _ (first :: front)
      · exact .of_agrees _ (.problem _ (first :: front))

end ServiceAnnotator.Grammar
