import ServiceAnnotator.Proofs.Grammar.Equations
import ServiceAnnotator.Proofs.Grammar.Frame.Expression
import ServiceAnnotator.Proofs.Grammar.Phrase

/-!
# Rules that accept a language

A rule accepts a language if it takes exactly the phrases of the language without a report. A rule
that stops in front of certain kinds only does so where its phrase is followed by one of them. Rules
put together accept the language that is put together in the same way, if what may follow the one
rule is what the phrases of the other start with.
-/

open scoped Computability

namespace ServiceAnnotator

/-! ## Reading without a report -/

namespace Parsed

variable {α : Type}

/-- Whether nothing was reported and a list of tokens is left. -/
def Clean (parsed : Parsed α) (rest : List α) : Prop := parsed.reports = [] ∧ parsed.rest = rest

variable {parsed : Parsed α} {rest : List α}

@[simp] theorem clean_none (tokens : List α) : (none tokens).Clean rest ↔ tokens = rest := by
  simp [Clean, none]

@[simp] theorem not_clean_problem (p : Problem) (tokens : List α) :
    ¬(problem p tokens).Clean rest := by
  simp [Clean, problem]

@[simp] theorem clean_tokens (count : Nat) (tokens : List α) :
    (Parsed.tokens count tokens).Clean rest ↔ tokens.drop count = rest := by
  simp [Clean, Parsed.tokens]

@[simp] theorem clean_wrap (kind : Kind) : (parsed.wrap kind).Clean rest ↔ parsed.Clean rest :=
  Iff.rfl

@[simp] theorem clean_cons (element : Tree α) : (parsed.cons element).Clean rest ↔ parsed.Clean rest :=
  Iff.rfl

@[simp] theorem not_clean_report (p : Problem) (ahead : Nat) :
    ¬(parsed.report p ahead).Clean rest := by
  simp [Clean, report]

theorem clean_ite {other : Parsed α} (condition : Prop) [Decidable condition] :
    (if condition then parsed else other).Clean rest ↔
      (condition ∧ parsed.Clean rest) ∨ (¬condition ∧ other.Clean rest) := by
  split <;> simp [*]

/-- Two rules read without a report if the second one does behind what the first one leaves. -/
@[simp] theorem clean_andThen (rule : List α → Parsed α) :
    (parsed.andThen rule).Clean rest ↔ ∃ mid, parsed.Clean mid ∧ (rule mid).Clean rest := by
  simp only [Clean, andThen, List.append_eq_nil_iff]
  constructor
  · rintro ⟨⟨first, second⟩, left⟩
    exact ⟨_, ⟨first, rfl⟩, second, left⟩
  · rintro ⟨_, ⟨first, rfl⟩, second, left⟩
    exact ⟨⟨first, second⟩, left⟩

end Parsed

namespace Phrase

open Grammar (next)

/-! ## What phrases start with -/

/-- Whether every phrase of a language has a first token, of a kind that satisfies a condition. -/
def StartsWith (language : Language Kind) (start : Kind → Prop) : Prop :=
  ∀ phrase ∈ language, ∃ first rest, phrase = first :: rest ∧ start first

/-- Whether phrases of a language in front of certain kinds start with certain kinds, or are empty
in front of them. -/
def Leads (language : Language Kind) (behind before : Kind → Prop) : Prop :=
  ∀ phrase ∈ language, ∀ rest, behind (next rest) → before (next (phrase ++ rest))

variable {left right : Language Kind} {start behind mid before : Kind → Prop}

theorem startsWith_token (kind : Kind) : StartsWith (token kind) (· = kind) := by
  rintro _ rfl
  exact ⟨kind, [], rfl, rfl⟩

theorem StartsWith.imp (starts : StartsWith left start) (more : ∀ kind, start kind → before kind) :
    StartsWith left before := by
  intro phrase inside
  obtain ⟨first, rest, phraseEq, isStart⟩ := starts phrase inside
  exact ⟨first, rest, phraseEq, more first isStart⟩

theorem StartsWith.mul (starts : StartsWith left start) (right : Language Kind) :
    StartsWith (left * right) start := by
  rintro _ ⟨front, inside, back, _, rfl⟩
  obtain ⟨first, rest, rfl, isStart⟩ := starts front inside
  exact ⟨first, rest ++ back, rfl, isStart⟩

theorem StartsWith.add (startsLeft : StartsWith left start) (startsRight : StartsWith right start) :
    StartsWith (left + right) start := by
  rintro phrase (inside | inside)
  · exact startsLeft phrase inside
  · exact startsRight phrase inside

theorem StartsWith.leads (starts : StartsWith left start) (more : ∀ kind, start kind → before kind) :
    Leads left behind before := by
  intro phrase inside rest _
  obtain ⟨first, others, rfl, isStart⟩ := starts phrase inside
  exact more first isStart

theorem leads_any : Leads left behind fun _ => True := fun _ _ _ _ => trivial

theorem Leads.optional (leads : Leads left behind before)
    (skip : ∀ kind, behind kind → before kind) : Leads (optional left) behind before := by
  rintro phrase (empty | inside) rest stands
  · obtain rfl := (Language.mem_one phrase).mp empty
    exact skip _ stands
  · exact leads phrase inside rest stands

theorem Leads.mul (second : Leads right behind mid) (first : Leads left mid before) :
    Leads (left * right) behind before := by
  rintro _ ⟨front, inFront, back, inBack, rfl⟩ rest stands
  rw [List.append_assoc]
  exact first front inFront _ (second back inBack rest stands)

/-- A phrase of a repetition is empty or starts with one phrase. -/
theorem mem_kstar_iff (phrase : List Kind) :
    phrase ∈ left∗ ↔ phrase = [] ∨ ∃ front ∈ left, ∃ back ∈ left∗, front ++ back = phrase := by
  have unrolled : phrase ∈ left∗ ↔ phrase ∈ 1 + left * left∗ := by
    rw [Language.one_add_self_mul_kstar_eq_kstar]
  rw [unrolled, Language.mem_add, Language.mem_one, Language.mem_mul]

theorem Leads.kstar (starts : StartsWith left start) (more : ∀ kind, start kind → before kind)
    (skip : ∀ kind, behind kind → before kind) : Leads left∗ behind before := by
  intro phrase inside rest stands
  rcases (mem_kstar_iff phrase).mp inside with rfl | ⟨front, inFront, back, _, rfl⟩
  · exact skip _ stands
  · obtain ⟨first, others, rfl, isStart⟩ := starts front inFront
    exact more first isStart

end Phrase

namespace Grammar

open Phrase (Leads StartsWith token optional)

/-! ## Accepting a language -/

/-- Here tokens are given by their kinds alone. -/
@[simp] theorem kind_self (kind : Kind) : Kinded.kind kind = kind := rfl

@[simp] theorem next_cons (kind : Kind) (tokens : List Kind) : next (kind :: tokens) = kind := rfl

/-- Whether a rule reads the phrases of a language without a report, in front of certain kinds. -/
def Accepts (rule : List Kind → Parsed Kind) (language : Language Kind) (before : Kind → Prop) :
    Prop :=
  ∀ tokens rest, before (next rest) →
    ((rule tokens).Clean rest ↔ ∃ front ∈ language, front ++ rest = tokens)

variable {rule first second : List Kind → Parsed Kind} {left right : Language Kind}
  {before behind start : Kind → Prop}

theorem Accepts.congr (accepts : Accepts first left before)
    (same : ∀ tokens rest, (rule tokens).Clean rest ↔ (first tokens).Clean rest) :
    Accepts rule left before := by
  intro tokens rest stands
  rw [same]
  exact accepts tokens rest stands

theorem Accepts.imp (accepts : Accepts rule left before) (fewer : ∀ kind, behind kind → before kind) :
    Accepts rule left behind :=
  fun tokens rest stands => accepts tokens rest (fewer _ stands)

/-- Two rules one behind the other accept the phrases of both, one behind the other. -/
theorem Accepts.andThen (acceptsFirst : Accepts first left before)
    (acceptsSecond : Accepts second right behind) (leads : Leads right behind before) :
    Accepts (fun tokens => (first tokens).andThen second) (left * right) behind := by
  intro tokens rest stands
  rw [Parsed.clean_andThen]
  constructor
  · rintro ⟨mid, cleanFirst, cleanSecond⟩
    obtain ⟨back, inBack, rfl⟩ := (acceptsSecond mid rest stands).mp cleanSecond
    have between := leads back inBack rest stands
    obtain ⟨front, inFront, rfl⟩ := (acceptsFirst tokens _ between).mp cleanFirst
    exact ⟨front ++ back, ⟨front, inFront, back, inBack, rfl⟩, List.append_assoc ..⟩
  · rintro ⟨_, ⟨front, inFront, back, inBack, rfl⟩, rfl⟩
    have between := leads back inBack rest stands
    refine ⟨back ++ rest, (acceptsFirst _ _ between).mpr ⟨front, inFront, ?_⟩,
      (acceptsSecond _ _ stands).mpr ⟨back, inBack, rfl⟩⟩
    rw [List.append_assoc]

@[simp] theorem clean_expect {kind : Kind} (some : kind ≠ .endOfFile) (tokens rest : List Kind) :
    (expect kind tokens).Clean rest ↔ next tokens = kind ∧ tokens.drop 1 = rest := by
  rw [expect_eq some, Parsed.clean_ite]
  simp

theorem accepts_expect {kind : Kind} (some : kind ≠ .endOfFile) :
    Accepts (expect kind) (token kind) before := by
  intro tokens rest _
  rw [clean_expect some]
  constructor
  · rintro ⟨found, rfl⟩
    obtain ⟨first, others, rfl, rfl⟩ := exists_cons_of_next found some
    exact ⟨[first], rfl, rfl⟩
  · rintro ⟨_, rfl, rfl⟩
    exact ⟨rfl, rfl⟩

/-- A rule that tells by a condition on the tokens which of two rules to use. -/
theorem Accepts.add (condition : List Kind → Prop) (acceptsFirst : Accepts first left before)
    (acceptsSecond : Accepts second right before)
    (onFirst : ∀ front ∈ left, ∀ rest, before (next rest) → condition (front ++ rest))
    (onSecond : ∀ front ∈ right, ∀ rest, before (next rest) → ¬condition (front ++ rest))
    (unrolled : ∀ tokens rest, (rule tokens).Clean rest ↔
      (condition tokens ∧ (first tokens).Clean rest) ∨
        (¬condition tokens ∧ (second tokens).Clean rest)) :
    Accepts rule (left + right) before := by
  intro tokens rest stands
  rw [unrolled, acceptsFirst tokens rest stands, acceptsSecond tokens rest stands]
  constructor
  · rintro (⟨_, front, inside, split⟩ | ⟨_, front, inside, split⟩)
    · exact ⟨front, .inl inside, split⟩
    · exact ⟨front, .inr inside, split⟩
  · rintro ⟨front, inside | inside, rfl⟩
    · exact .inl ⟨onFirst front inside rest stands, front, inside, rfl⟩
    · exact .inr ⟨onSecond front inside rest stands, front, inside, rfl⟩

/-- A rule that is used where its phrases start, and skipped elsewhere. -/
theorem Accepts.optional (accepts : Accepts first left before) (starts : StartsWith left start)
    (fewer : ∀ kind, behind kind → before kind) (stops : ∀ kind, behind kind → ¬start kind)
    (unrolled : ∀ tokens rest, (rule tokens).Clean rest ↔
      (start (next tokens) ∧ (first tokens).Clean rest) ∨
        (¬start (next tokens) ∧ tokens = rest)) :
    Accepts rule (optional left) behind := by
  intro tokens rest stands
  rw [unrolled, accepts tokens rest (fewer _ stands)]
  constructor
  · rintro (⟨_, front, inside, rfl⟩ | ⟨_, rfl⟩)
    · exact ⟨front, .inr inside, rfl⟩
    · exact ⟨[], .inl rfl, rfl⟩
  · rintro ⟨front, empty | inside, rfl⟩
    · obtain rfl := (Language.mem_one front).mp empty
      exact .inr ⟨stops _ stands, rfl⟩
    · obtain ⟨kind, others, rfl, isStart⟩ := starts front inside
      exact .inl ⟨isStart, _, inside, rfl⟩

/-- A rule that is used again and again as long as its phrases start. -/
theorem Accepts.kstar (accepts : Accepts first left fun kind => start kind ∨ behind kind)
    (starts : StartsWith left start) (stops : ∀ kind, behind kind → ¬start kind)
    (unrolled : ∀ tokens rest, (rule tokens).Clean rest ↔
      (start (next tokens) ∧ ((first tokens).andThen rule).Clean rest) ∨
        (¬start (next tokens) ∧ tokens = rest)) :
    Accepts rule left∗ behind := by
  intro tokens rest stands
  have leads : Leads left∗ behind fun kind => start kind ∨ behind kind :=
    .kstar starts (fun _ => .inl) fun _ => .inr
  have standsAt {mid : List Kind} (clean : (rule mid).Clean rest) :
      start (next mid) ∨ behind (next mid) := by
    rcases (unrolled mid rest).mp clean with ⟨isStart, _⟩ | ⟨_, rfl⟩
    · exact .inl isStart
    · exact .inr stands
  constructor
  · intro clean
    -- the first phrase is not empty, so that the tokens behind it are fewer
    induction lengthEq : tokens.length using Nat.strongRecOn generalizing tokens with
    | ind length ih =>
      rcases (unrolled tokens rest).mp clean with ⟨_, more⟩ | ⟨_, rfl⟩
      · obtain ⟨mid, cleanFirst, cleanMore⟩ := (Parsed.clean_andThen rule).mp more
        obtain ⟨front, inFront, rfl⟩ := (accepts tokens mid (standsAt cleanMore)).mp cleanFirst
        obtain ⟨kind, others, rfl, _⟩ := starts front inFront
        have shorter : mid.length < length := by
          rw [← lengthEq, List.length_append, List.length_cons]
          omega
        obtain ⟨back, inBack, rfl⟩ := ih mid.length shorter mid cleanMore rfl
        refine ⟨kind :: others ++ back, (Phrase.mem_kstar_iff _).mpr (.inr ?_), List.append_assoc ..⟩
        exact ⟨_, inFront, back, inBack, rfl⟩
      · exact ⟨[], Language.nil_mem_kstar left, rfl⟩
  · rintro ⟨phrase, inside, rfl⟩
    induction lengthEq : phrase.length using Nat.strongRecOn generalizing phrase with
    | ind length ih =>
      rw [unrolled]
      rcases (Phrase.mem_kstar_iff phrase).mp inside with rfl | ⟨front, inFront, back, inBack, rfl⟩
      · exact .inr ⟨stops _ stands, rfl⟩
      · obtain ⟨kind, others, rfl, isStart⟩ := starts front inFront
        have shorter : back.length < length := by
          rw [← lengthEq, List.length_append, List.length_cons]
          omega
        have cleanMore := ih back.length shorter back inBack rfl
        have cleanFirst := (accepts (kind :: others ++ (back ++ rest)) (back ++ rest)
          (leads back inBack rest stands)).mpr ⟨_, inFront, rfl⟩
        rw [List.append_assoc]
        exact .inl ⟨isStart, (Parsed.clean_andThen rule).mpr ⟨_, cleanFirst, cleanMore⟩⟩

end Grammar

end ServiceAnnotator
