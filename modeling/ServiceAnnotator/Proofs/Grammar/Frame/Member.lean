import ServiceAnnotator.Proofs.Grammar.Frame.Declaration

/-!
# Members of a module in front of other tokens

A member is metadata, qualifiers and a declaration. A member that turns out to be a service has a
known form, and a member of any kind reads the same in front of other tokens.
-/

namespace ServiceAnnotator.Grammar

open Parsed (Agrees Composed)

variable {α : Type} [Kinded α] {rest rest' : List α}

theorem composed_qualified (tokens : List α) : (qualified tokens).2.Composed tokens := by
  rw [qualified, Prod.map_snd]
  exact (Composed.tokens _ tokens).andThen (composed_declaration _)

theorem agrees_qualified (follows : Follows rest rest') (front : List α) :
    AgreesWithKind rest rest' (qualified (front ++ rest)) (qualified (front ++ rest')) := by
  intro behind restEq
  rw [rest_qualified] at restEq
  by_cases inFront : countIn qualifiers (front ++ rest) ≤ front.length
  · have sameCount : countIn qualifiers (front ++ rest') = countIn qualifiers (front ++ rest) :=
      length_takeWhile_append follows (fun inside => absurd inside (by decide)) front inFront
    have dropped (tokens : List α) : (front ++ tokens).drop (countIn qualifiers (front ++ rest)) =
        front.drop (countIn qualifiers (front ++ rest)) ++ tokens :=
      List.drop_append_of_le_length inFront
    rw [dropped] at restEq
    obtain ⟨sameKind, same⟩ := agrees_declaration follows _ behind restEq
    rw [qualified, qualified, sameCount, dropped, dropped]
    refine ⟨sameKind, ?_, ?_, same.rest⟩
    · simp only [Prod.map_snd, Parsed.andThen, Parsed.tokens, same.elements,
        List.take_append_of_le_length inFront]
    · have problems := same.problems
      simpa [Parsed.problems, Parsed.andThen, Parsed.tokens] using problems
  · have bound := length_rest_declaration_le
      ((front ++ rest).drop (countIn qualifiers (front ++ rest)))
    have inside : countIn qualifiers (front ++ rest) ≤ (front ++ rest).length :=
      (List.takeWhile_prefix _).length_le
    rw [restEq] at bound
    simp only [List.length_append, List.length_drop] at bound inside
    omega

/-- A qualifier or the keyword of a service is taken. -/
theorem length_rest_qualified_lt {first : α} (behind : List α)
    (starts : (Kinded.kind first).startsService) :
    (qualified (first :: behind)).2.rest.length < (first :: behind).length := by
  rw [rest_qualified, countIn_cons]
  split
  · refine Nat.lt_of_le_of_lt (length_rest_declaration_le _) ?_
    simp only [List.length_drop, List.length_cons]
    omega
  · rename_i noQualifier
    refine length_rest_declaration_lt (.inl ?_)
    revert starts noQualifier
    cases Kinded.kind first <;> decide

/-- Metadata does not end in front of an at sign. -/
theorem next_rest_metadata_ne (tokens : List α) : next (metadata tokens).rest ≠ .atSign := by
  rw [rest_metadata]
  exact next_rest_attachments_ne _

/-- A member reads the same in front of other tokens. -/
theorem same_member (follows : Follows rest rest') (front : List α)
    (ends : (member (front ++ rest)).rest = rest) :
    (member (front ++ rest)).Same (member (front ++ rest')) rest' := by
  obtain ⟨taken, tokensEq⟩ := (composed_metadata (front ++ rest)).covers.exists_front
  obtain ⟨mid, split⟩ := (composed_qualified (metadata (front ++ rest)).rest).covers.exists_front
  have noSign := next_rest_metadata_ne (front ++ rest)
  rw [member_eq, Parsed.rest_wrap, Parsed.rest_andThen] at ends
  rw [ends] at split
  rw [split] at tokensEq noSign ends
  -- Where only a qualifier or a keyword could have changed, it would have been taken.
  have noSign' : next (mid ++ rest') ≠ .atSign := by
    cases mid with
    | cons first mid => exact noSign
    | nil =>
      cases follows with
      | nil => exact noSign
      | same _ _ sameKind => rwa [List.nil_append, next, sameKind]
      | sign behind _ starts _ =>
        have shorter := length_rest_qualified_lt behind starts
        rw [← List.nil_append (_ :: behind), ends] at shorter
        exact absurd shorter (Nat.lt_irrefl _)
  have frontEq : front = taken ++ mid := by
    rw [← List.append_assoc] at tokensEq
    exact List.append_cancel_right tokensEq
  rw [frontEq, List.append_assoc] at split
  have metadataSame := same_metadata (follows.append_left mid) noSign' taken split
  obtain ⟨sameKind, qualifiedSame⟩ := agrees_qualified follows mid [] ends
  rw [frontEq, List.append_assoc, List.append_assoc, member_eq, member_eq, split,
    metadataSame.rest, sameKind]
  rw [← split] at qualifiedSame
  exact (metadataSame.andThen qualifiedSame).wrap _

/-! ## Services -/

/-- The qualifiers of a service and its keyword. -/
def ServiceWords (words : List α) : Prop :=
  ∃ marks keyword, words = marks ++ [keyword] ∧
    (∀ mark ∈ marks, qualifiers.contains (Kinded.kind mark) = true) ∧
      Kinded.kind keyword = .serviceKw

/-- The first word of a service is one in front of which an annotation may be put. -/
theorem ServiceWords.exists_cons {words : List α} (service : ServiceWords words) :
    ∃ first others, words = first :: others ∧ (Kinded.kind first).startsService := by
  obtain ⟨marks, keyword, rfl, qualify, isService⟩ := service
  cases marks with
  | nil =>
    refine ⟨keyword, [], rfl, ?_⟩
    rw [isService]
    rfl
  | cons mark marks =>
    refine ⟨mark, marks ++ [keyword], rfl, ?_⟩
    have isQualifier := qualify mark (by simp)
    revert isQualifier
    cases Kinded.kind mark <;> decide

/-- Another first word of the same kind changes nothing. -/
theorem ServiceWords.replaceFirst {first first' : α} {others : List α}
    (service : ServiceWords (first :: others)) (sameKind : Kinded.kind first' = Kinded.kind first) :
    ServiceWords (first' :: others) := by
  obtain ⟨marks, keyword, split, qualify, isService⟩ := service
  cases marks with
  | nil =>
    obtain ⟨rfl, rfl⟩ := List.cons.inj split
    exact ⟨[], first', rfl, by simp, sameKind.trans isService⟩
  | cons mark marks =>
    obtain ⟨rfl, rfl⟩ := List.cons.inj split
    refine ⟨first' :: marks, keyword, rfl, ?_, isService⟩
    intro other inside
    rcases List.mem_cons.mp inside with rfl | later
    · rw [sameKind]
      exact qualify first (by simp)
    · exact qualify other (by simp [later])

/-- What is read of a service behind its metadata. -/
theorem qualified_service {words header : List α} (service : ServiceWords words)
    (noClass : next header ≠ .classKw) :
    qualified (words ++ header) =
      (.serviceDeclaration,
        ⟨words.map .leaf ++ (serviceParts header).elements, (serviceParts header).reports,
          (serviceParts header).rest⟩) := by
  obtain ⟨marks, keyword, rfl, qualify, isService⟩ := service
  rw [List.append_assoc, List.singleton_append]
  have counted : countIn qualifiers (marks ++ keyword :: header) = marks.length := by
    rw [countIn, List.takeWhile_append_of_pos qualify, List.takeWhile_cons, isService,
      if_neg (by decide), List.append_nil]
  have declared : declaration (keyword :: header) =
      (.serviceDeclaration, (serviceParts header).cons (.leaf keyword)) := by
    rw [declaration, if_pos isService, service_eq, if_neg noClass]
  rw [qualified, counted, List.drop_left, declared]
  simp [Parsed.andThen, Parsed.tokens, Parsed.cons]

theorem declarationKind?_ne (kind : Kind) : declarationKind? kind ≠ some .serviceDeclaration := by
  cases kind <;> decide

/-- A declaration that turned out to be a service is one. -/
theorem exists_of_qualified_service {tokens : List α}
    (isService : (qualified tokens).1 = .serviceDeclaration) :
    ∃ words header, tokens = words ++ header ∧ ServiceWords words ∧ next header ≠ .classKw := by
  have declared : (declaration (tokens.drop (countIn qualifiers tokens))).1 =
      .serviceDeclaration := isService
  have split := List.take_append_drop (countIn qualifiers tokens) tokens
  have marks : ∀ mark ∈ tokens.take (countIn qualifiers tokens),
      qualifiers.contains (Kinded.kind mark) = true := by
    intro mark inside
    have takeEq : tokens.take (countIn qualifiers tokens) =
        tokens.takeWhile fun token => qualifiers.contains (Kinded.kind token) :=
      (List.prefix_iff_eq_take.mp (List.takeWhile_prefix _)).symm
    rw [takeEq] at inside
    exact List.all_eq_true.mp List.all_takeWhile mark inside
  cases behindEq : tokens.drop (countIn qualifiers tokens) with
  | nil =>
    rw [behindEq] at declared
    cases declared
  | cons keyword header =>
    rw [behindEq] at declared split
    rw [declaration] at declared
    split at declared
    · rename_i isKeyword
      refine ⟨tokens.take (countIn qualifiers tokens) ++ [keyword], header, ?_,
        ⟨_, keyword, rfl, marks, isKeyword⟩, fun isClass => ?_⟩
      · rw [List.append_assoc, List.singleton_append, split]
      · rw [service_eq, if_pos isClass] at declared
        rcases fst_plainRun .classDefinition 0 header with same | same
        all_goals
          simp only [Prod.map_fst, id_eq, same] at declared
          cases declared
    · split at declared
      · rename_i kind found
        rcases fst_plainRun kind 0 (keyword :: header) with same | same
        · rw [declared] at same
          rw [← same] at found
          exact absurd found (declarationKind?_ne _)
        · rw [declared] at same
          cases same
      · cases declared

end ServiceAnnotator.Grammar
