import ServiceAnnotator.Proofs.Grammar.Accepts

/-!
# Runs

A run is told by the depth behind each of its beginnings, and it is read with the depth behind one
token after the other. Both come to the same, and so they do for the runs of flat declarations.
-/

namespace ServiceAnnotator

namespace Phrase

open Grammar (bracket depthBehind? next)

/-! ## Beginnings of a phrase -/

variable {kind : Kind} {phrase : List Kind}

theorem forall_prefix_cons_iff {p : List Kind → Prop} :
    (∀ front, front <+: kind :: phrase → p front) ↔
      p [] ∧ ∀ front, front <+: phrase → p (kind :: front) := by
  constructor
  · intro all
    exact ⟨all [] List.nil_prefix, fun front inside => all _ ((List.prefix_cons_inj kind).mpr inside)⟩
  · rintro ⟨empty, others⟩ front inside
    rcases List.prefix_cons_iff.mp inside with rfl | ⟨rest, rfl, within⟩
    · exact empty
    · exact others rest within

/-- The same for a token behind the beginning. -/
theorem forall_concat_prefix_cons_iff {p : List Kind → Kind → Prop} :
    (∀ front last, front ++ [last] <+: kind :: phrase → p front last) ↔
      p [] kind ∧ ∀ front last, front ++ [last] <+: phrase → p (kind :: front) last := by
  constructor
  · intro all
    exact ⟨all [] kind ((List.prefix_cons_inj kind).mpr List.nil_prefix),
      fun front last inside => all (kind :: front) last ((List.prefix_cons_inj kind).mpr inside)⟩
  · rintro ⟨empty, others⟩ front last inside
    cases front with
    | nil =>
      obtain ⟨rfl, -⟩ := List.cons_prefix_cons.mp inside
      exact empty
    | cons first front =>
      obtain ⟨rfl, within⟩ := List.cons_prefix_cons.mp inside
      exact others front last within

/-- The same for two tokens behind the beginning. -/
theorem forall_pair_prefix_cons_iff {p : List Kind → Kind → Kind → Prop} :
    (∀ front last following, front ++ [last, following] <+: kind :: phrase →
        p front last following) ↔
      (∀ following, phrase.head? = some following → p [] kind following) ∧
        ∀ front last following, front ++ [last, following] <+: phrase →
          p (kind :: front) last following := by
  constructor
  · intro all
    refine ⟨fun following isHead => ?_, fun front last following inside =>
      all (kind :: front) last following ((List.prefix_cons_inj kind).mpr inside)⟩
    obtain ⟨others, rfl⟩ := List.head?_eq_some_iff.mp isHead
    exact all [] kind following ⟨others, rfl⟩
  · rintro ⟨empty, others⟩ front last following inside
    cases front with
    | nil =>
      obtain ⟨rfl, others, rfl⟩ := List.cons_prefix_cons.mp inside
      exact empty following rfl
    | cons first front =>
      obtain ⟨rfl, within⟩ := List.cons_prefix_cons.mp inside
      exact others front last following within

/-! ## Depth token by token -/

@[simp] theorem depth_nil : depth [] = 0 := rfl

@[simp] theorem depth_cons (kind : Kind) (phrase : List Kind) :
    depth (kind :: phrase) = weight kind + depth phrase := rfl

theorem weight_eq (kind : Kind) :
    weight kind = match bracket kind with
      | .opens => 1
      | .closes => -1
      | .neither => 0 := by
  cases kind <;> rfl

theorem weight_cases (kind : Kind) : weight kind = 1 ∨ weight kind = -1 ∨ weight kind = 0 := by
  rw [weight_eq]
  cases bracket kind <;> simp

/-- A token of a run adds its weight to the depth, which stays a number. -/
theorem depthBehind?_eq_some_iff (stop : List Kind) (depth : Nat) (kind : Kind) (behind : Nat) :
    depthBehind? (.ofList stop) depth kind = some behind ↔
      (depth = 0 → kind ∉ stop) ∧ (behind : Int) = depth + weight kind := by
  have stops : (KindSet.ofList stop).contains kind = true ↔ kind ∈ stop := List.contains_iff_mem
  rw [depthBehind?, weight_eq]
  by_cases ended : depth = 0 ∧ kind ∈ stop
  · rw [if_pos ⟨ended.1, stops.mpr ended.2⟩]
    refine ⟨fun found => ?_, fun free => absurd ended.2 (free.1 ended.1)⟩
    cases found
  · have free : depth = 0 → kind ∉ stop := fun zero inside => ended ⟨zero, inside⟩
    rw [if_neg fun both => ended ⟨both.1, stops.mp both.2⟩, and_iff_right free]
    cases bracket kind with
    | opens =>
      simp only [Option.some_inj]
      omega
    | closes =>
      by_cases outside : depth = 0
      · simp only [outside, if_true, reduceCtorEq, false_iff]
        omega
      · simp only [outside, if_false, Option.some_inj]
        omega
    | neither =>
      simp only [Option.some_inj]
      omega

/-- Whether tokens close the brackets that are open at a depth, read one after the other. -/
def Closes (stop : List Kind) : Nat → List Kind → Prop
  | depth, [] => depth = 0
  | depth, kind :: phrase =>
    ∃ behind, depthBehind? (.ofList stop) depth kind = some behind ∧ Closes stop behind phrase

/-- Tokens close the brackets that are open if the depth behind them is zero, is no less behind any
beginning, and none of them stops the run. -/
theorem closes_iff (stop : List Kind) (start : Nat) (phrase : List Kind) :
    Closes stop start phrase ↔
      start + depth phrase = 0 ∧ (∀ front, front <+: phrase → 0 ≤ start + depth front) ∧
        ∀ front kind, front ++ [kind] <+: phrase → start + depth front = 0 → kind ∉ stop := by
  induction phrase generalizing start with
  | nil =>
    rw [Closes]
    simp [List.prefix_nil]
  | cons kind phrase ih =>
    rw [Closes, forall_prefix_cons_iff, forall_concat_prefix_cons_iff]
    simp only [ih, depthBehind?_eq_some_iff, depth_cons, depth_nil]
    constructor
    · rintro ⟨behind, ⟨noStop, isBehind⟩, closed, inside, free⟩
      simp only [← Int.add_assoc, ← isBehind]
      exact ⟨closed, ⟨by omega, inside⟩, by simpa using noStop, free⟩
    · rintro ⟨closed, ⟨_, inside⟩, noStop, free⟩
      have isBehind : ((start + weight kind).toNat : Int) = start + weight kind := by
        have within := inside [] List.nil_prefix
        rw [depth_nil] at within
        omega
      refine ⟨(start + weight kind).toNat, ⟨by simpa using noStop, isBehind⟩, ?_⟩
      simp only [isBehind, Int.add_assoc]
      exact ⟨closed, inside, free⟩

theorem isRun_iff (stop : List Kind) (phrase : List Kind) :
    IsRun stop phrase ↔ phrase ≠ [] ∧ Closes stop 0 phrase := by
  rw [closes_iff]
  simp only [Int.natCast_zero, Int.zero_add]
  exact ⟨fun run => ⟨run.some, run.closed, run.inside, run.free⟩,
    fun ⟨notEmpty, closed, inside, free⟩ => ⟨notEmpty, closed, inside, free⟩⟩

theorem IsRun.next_append {stop : List Kind} (isRun : IsRun stop phrase) (rest : List Kind) :
    next (phrase ++ rest) = next phrase := by
  cases phrase with
  | nil => exact absurd rfl isRun.some
  | cons first phrase => rfl

/-- Kinds in front of which a run ends: those that stop it, and closing brackets. -/
def StopsRun (stop : List Kind) (kind : Kind) : Prop := kind ∈ stop ∨ weight kind = -1

theorem depthBehind?_eq_none_iff (stop : List Kind) (depth : Nat) (kind : Kind) :
    depthBehind? (.ofList stop) depth kind = none ↔ depth = 0 ∧ StopsRun stop kind := by
  have stops : (KindSet.ofList stop).contains kind = true ↔ kind ∈ stop := List.contains_iff_mem
  rw [depthBehind?, StopsRun, weight_eq]
  by_cases ended : depth = 0 ∧ kind ∈ stop
  · rw [if_pos ⟨ended.1, stops.mpr ended.2⟩]
    exact iff_of_true rfl ⟨ended.1, .inl ended.2⟩
  · have free : depth = 0 → kind ∉ stop := fun zero inside => ended ⟨zero, inside⟩
    rw [if_neg fun both => ended ⟨both.1, stops.mp both.2⟩]
    cases bracket kind with
    | opens => simpa using free
    | closes => simp
    | neither => simpa using free

/-! ## Flat declarations -/

/-- Whether tokens end a flat declaration in front of a kind, read one after the other from a depth
on. -/
def EndsBehind (behind : Kind) : Nat → List Kind → Prop
  | _, [] => False
  | depth, kind :: phrase =>
    (EndsFlat depth kind (phrase.head?.getD behind) ∧ phrase = []) ∨
      (¬EndsFlat depth kind (phrase.head?.getD behind) ∧
        ∃ after : Nat, (after : Int) = depth + weight kind ∧ EndsBehind behind after phrase)

theorem EndsFlat.weight_ne {depth : Int} {kind behind : Kind} (ends : EndsFlat depth kind behind)
    (outside : depth = 0) : weight kind ≠ -1 := by
  rcases ends with ⟨_, rfl⟩ | ⟨inside, _⟩
  · decide
  · omega

/-- Tokens end a flat declaration if the last one does and none before it, and if no bracket is
closed before it is opened. -/
theorem endsBehind_iff (behind : Kind) (start : Nat) (phrase : List Kind) :
    EndsBehind behind start phrase ↔
      (∀ front kind, front ++ [kind] <+: phrase → start + depth front = 0 → weight kind ≠ -1) ∧
        (∃ front last, phrase = front ++ [last] ∧ EndsFlat (start + depth front) last behind) ∧
          ∀ front kind following, front ++ [kind, following] <+: phrase →
            ¬EndsFlat (start + depth front) kind following := by
  induction phrase generalizing start with
  | nil =>
    rw [EndsBehind]
    simp
  | cons kind phrase ih =>
    rw [EndsBehind, forall_concat_prefix_cons_iff, forall_pair_prefix_cons_iff]
    simp only [ih, depth_cons, depth_nil, Int.add_zero]
    constructor
    · rintro (⟨ends, rfl⟩ | ⟨notHere, after, isAfter, inside, ends, first⟩)
      · refine ⟨⟨fun outside => ends.weight_ne outside, by simp⟩, ⟨[], kind, rfl, ?_⟩, by simp⟩
        simpa using ends
      · obtain ⟨front, last, rfl, endsLast⟩ := ends
        simp only [← Int.add_assoc, ← isAfter]
        refine ⟨⟨by omega, inside⟩, ⟨kind :: front, last, rfl, ?_⟩, ?_, first⟩
        · rwa [depth_cons, ← Int.add_assoc, ← isAfter]
        · intro following isHead
          rwa [isHead, Option.getD_some] at notHere
    · rintro ⟨⟨noCloser, inside⟩, ⟨front, last, split, endsLast⟩, notHere, first⟩
      cases phrase with
      | nil =>
        obtain ⟨rfl, rfl⟩ : front = [] ∧ last = kind := by
          simpa [List.singleton_eq_append_iff] using split
        exact .inl ⟨by simpa using endsLast, rfl⟩
      | cons second phrase =>
        have isAfter : ((start + weight kind).toNat : Int) = start + weight kind := by
          rcases weight_cases kind with up | down | level
          all_goals omega
        refine .inr ⟨notHere second rfl, (start + weight kind).toNat, isAfter, ?_⟩
        cases front with
        | nil => simp at split
        | cons _ front =>
          obtain ⟨rfl, others⟩ := List.cons.inj split
          rw [depth_cons] at endsLast
          simp only [isAfter, Int.add_assoc]
          exact ⟨inside, ⟨front, last, others, endsLast⟩, first⟩

theorem isFlat_iff (behind : Kind) (phrase : List Kind) :
    IsFlat behind phrase ↔ EndsBehind behind 0 phrase := by
  rw [endsBehind_iff]
  simp only [Int.natCast_zero, Int.zero_add]
  exact ⟨fun flat => ⟨flat.inside, flat.ends, flat.first⟩,
    fun ⟨inside, ends, first⟩ => ⟨inside, ends, first⟩⟩

end Phrase

namespace Grammar

open Phrase (Closes EndsBehind EndsFlat IsRun MayFollow StopsRun optional run weight)

variable {stop : List Kind} {rest : List Kind}

/-- The tokens of a run in front of a kind that stops it, one token after the other. -/
theorem exists_closes_cons (stops : StopsRun stop (next rest)) (depth : Nat) (kind : Kind)
    (tokens : List Kind) :
    (∃ front, Closes stop depth front ∧ front ++ rest = kind :: tokens) ↔
      (depthBehind? (.ofList stop) depth kind).elim (kind :: tokens = rest)
        fun behind => ∃ front, Closes stop behind front ∧ front ++ rest = tokens := by
  constructor
  · rintro ⟨front, closes, split⟩
    cases front with
    | nil =>
      -- The kind stops the run itself, so nothing of it is taken.
      obtain rfl : depth = 0 := closes
      have notTaken := (Phrase.depthBehind?_eq_none_iff stop 0 _).mpr ⟨rfl, stops⟩
      rw [List.nil_append] at split
      rw [split] at notTaken
      rw [show next (kind :: tokens) = kind from rfl] at notTaken
      rw [notTaken]
      exact split.symm
    | cons first front =>
      obtain ⟨rfl, rfl⟩ := List.cons.inj split
      obtain ⟨behind, taken, closes⟩ := closes
      rw [taken]
      exact ⟨front, closes, rfl⟩
  · intro taken
    cases found : depthBehind? (.ofList stop) depth kind with
    | none =>
      obtain ⟨rfl, _⟩ := (Phrase.depthBehind?_eq_none_iff stop depth kind).mp found
      rw [found, Option.elim_none] at taken
      exact ⟨[], rfl, taken.symm⟩
    | some behind =>
      rw [found, Option.elim_some] at taken
      obtain ⟨front, closes, rfl⟩ := taken
      exact ⟨kind :: front, ⟨behind, found, closes⟩, rfl⟩

/-- In front of a kind that stops it a run takes the tokens that close the open brackets. -/
theorem drop_runLength_iff (noEnd : .endOfFile ∉ stop) (stops : StopsRun stop (next rest))
    (depth : Nat) (tokens : List Kind) :
    tokens.drop (runLength (.ofList stop) depth tokens) = rest ↔
      ∃ front, Closes stop depth front ∧ front ++ rest = tokens := by
  induction tokens generalizing depth with
  | nil =>
    have notEmpty : rest ≠ [] := by
      rintro rfl
      rcases stops with isStop | isCloser
      · exact noEnd isStop
      · cases isCloser
    rw [List.drop_nil]
    refine iff_of_false (Ne.symm notEmpty) ?_
    rintro ⟨front, _, split⟩
    exact notEmpty (List.append_eq_nil_iff.mp split).2
  | cons kind tokens ih =>
    rw [exists_closes_cons stops, runLength_cons, kind_self]
    cases depthBehind? (.ofList stop) depth kind with
    | none => exact Iff.rfl
    | some behind =>
      rw [Option.elim_some, Option.elim_some, Nat.add_comm, List.drop_succ_cons]
      exact ih behind

theorem runLength_eq_length {tokens front : List Kind}
    (left : tokens.drop (runLength (.ofList stop) 0 tokens) = rest) (split : front ++ rest = tokens) :
    runLength (.ofList stop) 0 tokens = front.length := by
  have bound := runLength_le (.ofList stop) 0 tokens
  have lengths := congrArg List.length left
  have total := congrArg List.length split
  rw [List.length_drop] at lengths
  rw [List.length_append] at total
  omega

/-- A rule that takes a run and reports where there is none. -/
theorem accepts_run {rule : List Kind → Parsed Kind} (noEnd : .endOfFile ∉ stop)
    (unrolled : ∀ tokens rest, (rule tokens).Clean rest ↔
      runLength (.ofList stop) 0 tokens ≠ 0 ∧
        tokens.drop (runLength (.ofList stop) 0 tokens) = rest) :
    Accepts rule (run stop) (StopsRun stop) := by
  intro tokens rest stops
  have taken := drop_runLength_iff noEnd stops 0 tokens
  rw [unrolled]
  constructor
  · rintro ⟨notEmpty, left⟩
    obtain ⟨front, closes, split⟩ := taken.mp left
    rw [runLength_eq_length left split, ne_eq, List.length_eq_zero_iff] at notEmpty
    exact ⟨front, (Phrase.isRun_iff stop front).mpr ⟨notEmpty, closes⟩, split⟩
  · rintro ⟨front, isRun, split⟩
    obtain ⟨notEmpty, closes⟩ := (Phrase.isRun_iff stop front).mp isRun
    have left := taken.mpr ⟨front, closes, split⟩
    rw [runLength_eq_length left split, ne_eq, List.length_eq_zero_iff]
    exact ⟨notEmpty, runLength_eq_length left split ▸ left⟩

theorem accepts_expression (noEnd : .endOfFile ∉ stop) :
    Accepts (expression (.ofList stop)) (run stop) (StopsRun stop) := by
  refine accepts_run noEnd fun tokens rest => ?_
  simp only [expression]
  rw [Parsed.clean_ite]
  simp

/-- A rule that takes a run if there is one. -/
theorem accepts_optionalRun :
    Accepts (fun tokens => Parsed.tokens (runLength .empty 0 tokens) tokens) (optional (run []))
      (StopsRun []) := by
  intro tokens rest stops
  have empty : KindSet.empty = .ofList [] := rfl
  rw [Parsed.clean_tokens, empty, drop_runLength_iff List.not_mem_nil stops]
  constructor
  · rintro ⟨front, closes, split⟩
    refine ⟨front, ?_, split⟩
    by_cases nothing : front = []
    · exact .inl nothing
    · exact .inr ((Phrase.isRun_iff [] front).mpr ⟨nothing, closes⟩)
  · rintro ⟨front, nothing | isRun, split⟩
    · obtain rfl := (Language.mem_one front).mp nothing
      exact ⟨[], rfl, split⟩
    · exact ⟨front, ((Phrase.isRun_iff [] front).mp isRun).2, split⟩

/-! ## Flat declarations -/

theorem endsDeclaration_iff (kind : Kind) : endsDeclaration kind ↔ MayFollow kind := by
  simp [endsDeclaration, MayFollow, variableStart, KindSet.ofList, or_assoc]

theorem next_append (phrase rest : List Kind) :
    next (phrase ++ rest) = phrase.head?.getD (next rest) := by
  cases phrase <;> rfl

/-- The tokens of a flat declaration, one token after the other. -/
theorem exists_endsBehind_cons (depth : Nat) (kind : Kind) (tokens rest : List Kind) :
    (∃ front, EndsBehind (next rest) depth front ∧ front ++ rest = kind :: tokens) ↔
      (EndsFlat depth kind (next tokens) ∧ tokens = rest) ∨
        (¬EndsFlat depth kind (next tokens) ∧ ∃ after : Nat, (after : Int) = depth + weight kind ∧
          ∃ front, EndsBehind (next rest) after front ∧ front ++ rest = tokens) := by
  constructor
  · rintro ⟨front, ends, split⟩
    cases front with
    | nil => cases ends
    | cons first front =>
      obtain ⟨rfl, behind⟩ := List.cons.inj split
      obtain rfl : front ++ rest = tokens := behind
      rw [next_append]
      rcases ends with ⟨here, rfl⟩ | ⟨notHere, after, isAfter, later⟩
      · exact .inl ⟨here, rfl⟩
      · exact .inr ⟨notHere, after, isAfter, front, later, rfl⟩
  · rintro (⟨here, rfl⟩ | ⟨notHere, after, isAfter, front, later, rfl⟩)
    · exact ⟨[kind], .inl ⟨here, rfl⟩, rfl⟩
    · rw [next_append] at notHere
      exact ⟨kind :: front, .inr ⟨notHere, after, isAfter, later⟩, rfl⟩

/-- What the run of a flat declaration makes of one token, given what it makes of the tokens behind
at each depth. -/
theorem clean_plainRun_cons {later : Nat → Prop} {token : Kind} {tokens : List Kind}
    (behind : ∀ kind depth, (plainRun kind depth tokens).2.Clean rest ↔ later depth) (kind : Kind)
    (depth : Nat) :
    (plainRun kind depth (token :: tokens)).2.Clean rest ↔
      (EndsFlat depth token (next tokens) ∧ tokens = rest) ∨
        (¬EndsFlat depth token (next tokens) ∧
          ∃ after : Nat, (after : Int) = depth + weight token ∧ later after) := by
  have goesOn (after : Nat) (isAfter : (after : Int) = depth + weight token) :
      (∃ other : Nat, (other : Int) = depth + weight token ∧ later other) ↔ later after := by
    constructor
    · rintro ⟨other, isOther, found⟩
      obtain rfl : other = after := by omega
      exact found
    · exact fun found => ⟨after, isAfter, found⟩
  rw [plainRun_cons, kind_self]
  by_cases ends : EndsFlat depth token (next tokens)
  · simp only [ends, true_and, not_true, false_and, or_false]
    rcases ends with ⟨zero, rfl⟩ | ⟨one, rfl, follows⟩
    · rw [if_pos ⟨rfl, by omega⟩]
      simp [Parsed.Clean]
    · obtain rfl : depth = 1 := by omega
      simp [bracket, (endsDeclaration_iff _).mpr follows, Parsed.Clean]
  · simp only [ends, false_and, not_false_eq_true, true_and, false_or]
    have noSemicolon : ¬(token = .semicolon ∧ depth = 0) := by
      rintro ⟨isSemicolon, zero⟩
      exact ends (.inl ⟨by omega, isSemicolon⟩)
    have noBrace : ¬(token = .rightBrace ∧ depth = 1 ∧ endsDeclaration (next tokens) = true) := by
      rintro ⟨isBrace, one, follows⟩
      exact ends (.inr ⟨by omega, isBrace, (endsDeclaration_iff _).mp follows⟩)
    rw [if_neg noSemicolon, if_neg noBrace]
    have weightEq := Phrase.weight_eq token
    by_cases isClass : token = .classKw ∧ depth = 0 ∧ kind = .moduleVarDeclaration
    · rw [if_pos isClass, Prod.map_snd, Parsed.clean_cons, behind]
      rw [isClass.1] at goesOn ⊢
      exact (goesOn depth (Int.add_zero _).symm).symm
    · rw [if_neg isClass]
      cases shape : bracket token with
      | opens =>
        simp only [shape] at weightEq
        rw [goesOn (depth + 1) (by omega), Prod.map_snd, Parsed.clean_cons, behind]
      | closes =>
        simp only [shape] at weightEq
        by_cases outside : depth = 0
        · simp only [outside, if_true, Prod.map_snd, Parsed.not_clean_report, false_iff]
          rintro ⟨after, isAfter, -⟩
          omega
        · rw [if_neg outside, goesOn (depth - 1) (by omega), Prod.map_snd,
            Parsed.clean_cons, behind]
      | neither =>
        simp only [shape] at weightEq
        rw [goesOn depth (by omega), Prod.map_snd, Parsed.clean_cons, behind]

/-- A flat declaration is read without a report exactly up to the first token that ends it. -/
theorem clean_plainRun_iff (kind : Kind) (depth : Nat) (tokens rest : List Kind) :
    (plainRun kind depth tokens).2.Clean rest ↔
      ∃ front, EndsBehind (next rest) depth front ∧ front ++ rest = tokens := by
  induction tokens generalizing kind depth with
  | nil =>
    refine iff_of_false (Parsed.not_clean_problem _ _) ?_
    rintro ⟨front, ends, split⟩
    rw [(List.append_eq_nil_iff.mp split).1] at ends
    cases ends
  | cons token tokens ih => rw [exists_endsBehind_cons, clean_plainRun_cons ih]

end Grammar

end ServiceAnnotator
