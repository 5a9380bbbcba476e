import ServiceAnnotator.Proofs.Grammar.Lossless
import ServiceAnnotator.Proofs.Scan.Keyword

/-!
# What the grammar sees behind a construct

A rule decides by the kind of the next token where it ends. Most rules do not tell an at sign from
the keywords in front of which an annotation may be put, so a construct that ends in front of such a
keyword ends in the same way in front of an at sign. The rules for annotation attachments are the
only ones that go on at an at sign.
-/

namespace ServiceAnnotator

variable {α : Type}

/-! ## Results that agree -/

namespace Parsed

/-- The problems met while reading, without their places. -/
def problems (parsed : Parsed α) : List Problem := parsed.reports.map Report.problem

/-- What was read twice, with the same elements and the same problems, and the rest of the second
reading. -/
structure Same (left right : Parsed α) (rest : List α) : Prop where
  elements : right.elements = left.elements
  problems : right.problems = left.problems
  rest : right.rest = rest

namespace Same

variable {left right : Parsed α} {rest behind : List α}

theorem cons (same : left.Same right rest) (element : Tree α) :
    (left.cons element).Same (right.cons element) rest :=
  ⟨congrArg (element :: ·) same.elements, same.problems, same.rest⟩

theorem wrap (same : left.Same right rest) (kind : Kind) :
    (left.wrap kind).Same (right.wrap kind) rest :=
  ⟨congrArg (fun children => [Tree.node kind children]) same.elements, same.problems, same.rest⟩

theorem report (same : left.Same right rest) (problem : Problem) (ahead ahead' : Nat) :
    (left.report problem ahead).Same (right.report problem ahead') rest :=
  ⟨same.elements, congrArg (problem :: ·) same.problems, same.rest⟩

/-- What goes on in the same way is the same. -/
theorem andThen {rule : List α → Parsed α} (first : left.Same right behind)
    (second : (rule left.rest).Same (rule behind) rest) :
    (left.andThen rule).Same (right.andThen rule) rest := by
  obtain ⟨elements, problems, restEq⟩ := first
  obtain ⟨elements', problems', restEq'⟩ := second
  rw [← restEq] at elements' problems' restEq'
  refine ⟨?_, ?_, restEq'⟩
  · rw [Parsed.andThen, Parsed.andThen, elements, elements']
  · simp only [Parsed.problems, Parsed.andThen, List.map_append] at problems problems' ⊢
    rw [problems, problems']

end Same

/-- Two readings of tokens that differ only behind some point agree, provided that the first one
does not go beyond that point. -/
def Agrees (rest rest' : List α) (left right : Parsed α) : Prop :=
  ∀ front, left.rest = front ++ rest → left.Same right (front ++ rest')

namespace Agrees

variable {rest rest' : List α} {left right : Parsed α}

theorem none (front : List α) :
    Agrees rest rest' (Parsed.none (front ++ rest)) (Parsed.none (front ++ rest')) := by
  intro behind restEq
  rw [← List.append_cancel_right restEq]
  exact ⟨rfl, rfl, rfl⟩

theorem problem (problem : Problem) (front : List α) :
    Agrees rest rest' (Parsed.problem problem (front ++ rest))
      (Parsed.problem problem (front ++ rest')) := by
  intro behind restEq
  rw [← List.append_cancel_right restEq]
  exact ⟨rfl, rfl, rfl⟩

theorem refl {tokens : List α} {parsed : Parsed α} : Agrees tokens tokens parsed parsed :=
  fun _ restEq => ⟨rfl, rfl, restEq⟩

/-- Counting tokens agrees if the counts do, at least up to the point. -/
theorem tokens {front : List α} {count count' : Nat} (bound : count ≤ (front ++ rest).length)
    (sameCount : count ≤ front.length → count' = count) :
    Agrees rest rest' (Parsed.tokens count (front ++ rest))
      (Parsed.tokens count' (front ++ rest')) := by
  intro behind restEq
  rw [Parsed.rest_tokens] at restEq
  have lengthEq := congrArg List.length restEq
  rw [List.length_append] at bound
  simp only [List.length_drop, List.length_append] at lengthEq
  have inFront : count ≤ front.length := by omega
  rw [List.drop_append_of_le_length inFront] at restEq
  rw [sameCount inFront, ← List.append_cancel_right restEq]
  refine ⟨?_, rfl, ?_⟩
  · simp only [Parsed.tokens, List.take_append_of_le_length inFront]
  · rw [Parsed.rest_tokens, List.drop_append_of_le_length inFront]

/-- A reading that goes beyond the point agrees with every other. -/
theorem of_length_lt (beyond : left.rest.length < rest.length) : Agrees rest rest' left right := by
  intro front restEq
  rw [restEq, List.length_append] at beyond
  omega

theorem cons (agrees : Agrees rest rest' left right) (element : Tree α) :
    Agrees rest rest' (left.cons element) (right.cons element) :=
  fun front restEq => (agrees front restEq).cons element

theorem wrap (agrees : Agrees rest rest' left right) (kind : Kind) :
    Agrees rest rest' (left.wrap kind) (right.wrap kind) :=
  fun front restEq => (agrees front restEq).wrap kind

theorem report (agrees : Agrees rest rest' left right) (problem : Problem) (ahead ahead' : Nat) :
    Agrees rest rest' (left.report problem ahead) (right.report problem ahead') :=
  fun front restEq => (agrees front restEq).report problem ahead ahead'

/-- Reading goes on in agreement. -/
theorem andThen (agrees : Agrees rest rest' left right) {rule : List α → Parsed α}
    (composed : (rule left.rest).Composed left.rest)
    (further : ∀ front, left.rest = front ++ rest →
      Agrees rest rest' (rule (front ++ rest)) (rule (front ++ rest'))) :
    Agrees rest rest' (left.andThen rule) (right.andThen rule) := by
  intro front restEq
  rw [Parsed.rest_andThen] at restEq
  obtain ⟨taken, split⟩ := composed.covers.exists_front
  rw [restEq, ← List.append_assoc] at split
  rw [split] at restEq
  have second := further _ split front restEq
  rw [← split] at second
  exact (agrees _ split).andThen second

/-- A rule that makes something of the tokens that it counts, and something else of none. -/
theorem ofCount {front : List α} {count count' : Nat} (bound : count ≤ (front ++ rest).length)
    (sameCount : count ≤ front.length → count' = count) (make : Parsed α → Parsed α)
    (make_agrees : ∀ {left right}, Agrees rest rest' left right →
      Agrees rest rest' (make left) (make right))
    (rest_make : ∀ parsed, (make parsed).rest = parsed.rest)
    (nothing : Agrees rest rest' left right) :
    Agrees rest rest' (if count = 0 then left else make (Parsed.tokens count (front ++ rest)))
      (if count' = 0 then right else make (Parsed.tokens count' (front ++ rest'))) := by
  by_cases inFront : count ≤ front.length
  · rw [sameCount inFront]
    split
    · exact nothing
    · exact make_agrees (tokens bound fun _ => rfl)
  · rw [if_neg (by omega)]
    apply of_length_lt
    rw [rest_make, Parsed.rest_tokens, List.length_drop]
    rw [List.length_append] at bound ⊢
    omega

end Agrees

end Parsed

namespace Grammar

open Parsed (Agrees)

variable [Kinded α]

/-- Tokens behind a construct and other tokens to be put in their place: they start with the same
kind, or an at sign stands in place of a keyword of a service. -/
inductive Follows : List α → List α → Prop where
  | nil : Follows [] []
  | same {first first' : α} (rest rest' : List α) :
      Kinded.kind first' = Kinded.kind first → Follows (first :: rest) (first' :: rest')
  | sign {first first' : α} (rest rest' : List α) :
      (Kinded.kind first).startsService → Kinded.kind first' = .atSign →
      Follows (first :: rest) (first' :: rest')

variable {rest rest' : List α}

theorem Follows.append_left (follows : Follows rest rest') (front : List α) :
    Follows (front ++ rest) (front ++ rest') := by
  cases front with
  | nil => exact follows
  | cons first front => exact .same _ _ rfl

/-- Kinds other than an at sign and the keywords that it may stand in for. -/
def isPlain (kind : Kind) : Bool := kind != .atSign && !kind.startsService

theorem Follows.next_eq_iff (follows : Follows rest rest') (kind : Kind)
    (plain : isPlain kind) : next rest' = kind ↔ next rest = kind := by
  cases follows with
  | nil => exact Iff.rfl
  | same _ _ sameKind => rw [next, next, sameKind]
  | sign _ _ starts isSign =>
    rw [next, next, isSign]
    constructor
    · rintro rfl
      cases plain
    · rintro rfl
      simp [isPlain, starts] at plain

/-- A choice by the kind of the next token is made in agreement. -/
theorem Follows.ite (follows : Follows rest rest') {kind : Kind} (plain : isPlain kind)
    {front : List α} {yes yes' no no' : Parsed α}
    (agreesYes : next (front ++ rest) = kind → Agrees rest rest' yes yes')
    (agreesNo : next (front ++ rest) ≠ kind → Agrees rest rest' no no') :
    Agrees rest rest' (if next (front ++ rest) = kind then yes else no)
      (if next (front ++ rest') = kind then yes' else no') := by
  have sameNext := (follows.append_left front).next_eq_iff kind plain
  by_cases here : next (front ++ rest) = kind
  · rw [if_pos here, if_pos (sameNext.mpr here)]
    exact agreesYes here
  · rw [if_neg here, if_neg (fun there => here (sameNext.mp there))]
    exact agreesNo here

/-- Taking a fixed number of tokens agrees. -/
theorem Follows.tokens (follows : Follows rest rest') (count : Nat) (front : List α) :
    Agrees rest rest' (Parsed.tokens count (front ++ rest))
      (Parsed.tokens count (front ++ rest')) := by
  cases follows with
  | nil => exact Agrees.refl
  | same | sign =>
    by_cases inFront : count ≤ front.length
    · refine Agrees.tokens ?_ fun _ => rfl
      rw [List.length_append]
      omega
    · apply Agrees.of_length_lt
      simp only [Parsed.rest_tokens, List.length_drop, List.length_append, List.length_cons]
      omega

/-! ## Counting tokens -/

theorem runLength_le (stop : KindSet) (depth : Nat) (tokens : List α) :
    runLength stop depth tokens ≤ tokens.length := by
  induction tokens generalizing depth with
  | nil => exact Nat.le_refl 0
  | cons token tokens ih =>
    rw [runLength_cons, List.length_cons]
    cases depthBehind? stop depth (Kinded.kind token) with
    | none => exact Nat.zero_le _
    | some behind =>
      have bound := ih behind
      rw [Option.elim_some]
      omega

/-- A run does not end in front of a keyword of a service, unless it should end there. -/
theorem depthBehind?_of_startsService {stop : KindSet} {depth : Nat} {kind : Kind}
    (starts : kind.startsService) (notStop : stop.contains kind = false) :
    depthBehind? stop depth kind = some depth := by
  rw [depthBehind?, notStop]
  revert starts
  cases kind <;> simp [Kind.startsService, bracket]

/-- A run ends at the same place in front of other tokens, unless it should end at a keyword of a
service. -/
theorem runLength_append (follows : Follows rest rest') {stop : KindSet}
    (plain : ∀ kind, kind.startsService → stop.contains kind = false) (depth : Nat)
    (front : List α) (inFront : runLength stop depth (front ++ rest) ≤ front.length) :
    runLength stop depth (front ++ rest') = runLength stop depth (front ++ rest) := by
  induction front generalizing depth with
  | nil =>
    simp only [List.nil_append, List.length_nil] at inFront ⊢
    cases follows with
    | nil => rfl
    | @same first _ _ _ sameKind =>
      rw [runLength_cons] at inFront
      rw [runLength_cons, runLength_cons, sameKind]
      cases behindEq : depthBehind? stop depth (Kinded.kind first) with
      | none => rfl
      | some behind =>
        rw [behindEq, Option.elim_some] at inFront
        omega
    | sign _ _ starts _ =>
      rw [runLength_cons, depthBehind?_of_startsService starts (plain _ starts)] at inFront
      rw [Option.elim_some] at inFront
      omega
  | cons token front ih =>
    rw [List.cons_append, List.cons_append, runLength_cons, runLength_cons]
    rw [List.cons_append, runLength_cons, List.length_cons] at inFront
    cases behindEq : depthBehind? stop depth (Kinded.kind token) with
    | none => rfl
    | some behind =>
      rw [behindEq, Option.elim_some] at inFront
      rw [Option.elim_some, Option.elim_some, ih behind (by omega)]

/-- A row of tokens whose kinds satisfy a condition ends at the same place in front of other
tokens. -/
theorem length_takeWhile_append (follows : Follows rest rest') {p : Kind → Bool}
    (sign : p .atSign = true → ∀ kind, kind.startsService → p kind = true) (front : List α)
    (inFront : ((front ++ rest).takeWhile fun token => p (Kinded.kind token)).length ≤
      front.length) :
    ((front ++ rest').takeWhile fun token => p (Kinded.kind token)).length =
      ((front ++ rest).takeWhile fun token => p (Kinded.kind token)).length := by
  induction front with
  | nil =>
    simp only [List.nil_append, List.length_nil] at inFront ⊢
    cases follows with
    | nil => rfl
    | @same first _ _ _ sameKind =>
      simp only [List.takeWhile_cons, sameKind] at inFront ⊢
      split
      · rename_i inside
        simp [inside] at inFront
      · rfl
    | @sign first _ _ _ starts isSign =>
      simp only [List.takeWhile_cons, isSign] at inFront ⊢
      split
      · rename_i inside
        simp [sign inside _ starts] at inFront
      · split at inFront
        · simp at inFront
        · rename_i outside
          rw [if_neg outside]
  | cons token front ih =>
    simp only [List.cons_append, List.takeWhile_cons, List.length_cons] at inFront ⊢
    split
    · rename_i inside
      simp only [inside, ↓reduceIte, List.length_cons] at inFront
      rw [List.length_cons, List.length_cons, ih (by omega)]
    · rfl

end Grammar

end ServiceAnnotator
