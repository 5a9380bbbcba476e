import ServiceAnnotator.Proofs.Check.Imports

/-!
# The diagnostics of a file

A check puts the problems of the grammar and the warnings about imports into the order of the text.
Both come in this order already, so that a stable sort keeps them as they are and only merges them.
-/

namespace ServiceAnnotator

/-! ## Stable sorting -/

/-- Elements that stand in order already keep their order in a stable sort. -/
theorem filter_mergeSort {α : Type} {le : α → α → Bool}
    (trans : ∀ a b c, le a b → le b c → le a c) (total : ∀ a b, le a b || le b a)
    {l : List α} {p : α → Bool} (ordered : (l.filter p).Pairwise fun a b => le a b) :
    (l.mergeSort le).filter p = l.filter p := by
  have kept : (l.filter p).Sublist (l.mergeSort le) :=
    List.sublist_mergeSort trans total ordered List.filter_sublist
  have filtered := kept.filter p
  rw [List.filter_filter] at filtered
  simp only [Bool.and_self] at filtered
  exact (filtered.eq_of_length ((List.mergeSort_perm l le).filter p).length_eq.symm).symm

namespace Diagnostic

/-- Whether a diagnostic starts in front of another one. -/
def startsBefore (left right : Diagnostic) : Bool := left.span.start ≤ right.span.start

theorem startsBefore_trans (a b c : Diagnostic) (first : startsBefore a b) (second : startsBefore b c) :
    startsBefore a c := by
  simp only [startsBefore, decide_eq_true_eq] at first second ⊢
  omega

theorem startsBefore_total (a b : Diagnostic) : startsBefore a b || startsBefore b a := by
  simp only [startsBefore, Bool.or_eq_true, decide_eq_true_eq]
  omega

/-- Whether a diagnostic may stand in front of another one: it does not start behind it, and of two
at the same position the second one is no error behind a warning. -/
def Precedes (left right : Diagnostic) : Prop :=
  left.span.start ≤ right.span.start ∧
    (left.span.start = right.span.start → right.isError → left.isError)

variable {problems warnings : List Diagnostic}

/-- Sorting merges errors and warnings that are in order. -/
theorem filter_isError_mergeSort (errors : ∀ problem ∈ problems, problem.isError)
    (noErrors : ∀ warning ∈ warnings, warning.isError = false)
    (problemsOrdered : problems.Pairwise fun left right => left.span.start ≤ right.span.start)
    (warningsOrdered : warnings.Pairwise fun left right => left.span.start ≤ right.span.start) :
    ((problems ++ warnings).mergeSort startsBefore).filter isError = problems ∧
      ((problems ++ warnings).mergeSort startsBefore).filter (!isError ·) = warnings := by
  have errorsEq : (problems ++ warnings).filter isError = problems := by
    rw [List.filter_append, List.filter_eq_self.mpr errors, List.filter_eq_nil_iff.mpr, List.append_nil]
    simpa using noErrors
  have othersEq : (problems ++ warnings).filter (!isError ·) = warnings := by
    rw [List.filter_append, List.filter_eq_nil_iff.mpr, List.filter_eq_self.mpr, List.nil_append]
    · simpa using noErrors
    · simpa using errors
  constructor
  · rw [filter_mergeSort startsBefore_trans startsBefore_total, errorsEq]
    rw [errorsEq]
    simpa [startsBefore] using problemsOrdered
  · rw [filter_mergeSort startsBefore_trans startsBefore_total, othersEq]
    rw [othersEq]
    simpa [startsBefore] using warningsOrdered

/-- Sorted, errors stand in front of warnings at the same position. -/
theorem pairwise_mergeSort_append (errors : ∀ problem ∈ problems, problem.isError)
    (noErrors : ∀ warning ∈ warnings, warning.isError = false) :
    ((problems ++ warnings).mergeSort startsBefore).Pairwise Precedes := by
  have ascending := List.pairwise_mergeSort startsBefore_trans startsBefore_total (problems ++ warnings)
  -- Those at one position stand in order already, whatever they are, so they stay as they are.
  have ties (position : Nat) :
      (((problems ++ warnings).mergeSort startsBefore).filter (·.span.start == position)).Pairwise
        fun left right => right.isError → left.isError := by
    rw [filter_mergeSort startsBefore_trans startsBefore_total]
    · rw [List.filter_append, List.pairwise_append]
      refine ⟨?_, ?_, fun left inside _ _ _ => errors left (List.mem_filter.mp inside).1⟩
      · exact List.pairwise_of_forall_mem_list fun left inside _ _ _ =>
          errors left (List.mem_filter.mp inside).1
      · refine List.pairwise_of_forall_mem_list fun _ _ right inside isError => ?_
        rw [noErrors right (List.mem_filter.mp inside).1] at isError
        cases isError
    · refine List.pairwise_of_forall_mem_list fun left inLeft right inRight => ?_
      have leftAt := beq_iff_eq.mp (List.mem_filter.mp inLeft).2
      have rightAt := beq_iff_eq.mp (List.mem_filter.mp inRight).2
      simp only [startsBefore, leftAt, rightAt, Nat.le_refl, decide_true]
  refine List.pairwise_iff_getElem.mpr fun left right inLeft inRight before => ⟨?_, ?_⟩
  · simpa [startsBefore] using List.pairwise_iff_getElem.mp ascending left right inLeft inRight before
  · intro same isError
    have tie (position : Nat) := List.pairwise_iff_getElem.mp
      (List.pairwise_filter.mp (ties position)) left right inLeft inRight before
    exact tie _ (beq_iff_eq.mpr same) (beq_self_eq_true _) isError

end Diagnostic

namespace SourceTree

open ImportView (places repeated warning)

theorem check_eq (text : List Char) :
    check text = ((parse text).problems ++ (repeated (places (parse text).tree)).map warning).mergeSort
      Diagnostic.startsBefore := by
  rw [check, diagnostics, ImportView.repeatedImports_parse]
  rfl

theorem pairwise_warnings (root : Tree Token) :
    ((repeated (places root)).map warning).Pairwise fun left right =>
      left.span.start ≤ right.span.start :=
  List.pairwise_map.mpr ((ImportView.pairwise_places root).sublist (ImportView.repeated_sublist _))

/-- A diagnostic lies at a part of the text. -/
theorem cuts_of_mem_check {text : List Char} {diagnostic : Diagnostic}
    (inside : diagnostic ∈ check text) : diagnostic.span.Cuts text := by
  rw [check_eq, List.mem_mergeSort, List.mem_append] at inside
  rcases inside with isProblem | isWarning
  · obtain ⟨-, placed, isToken, spanEq⟩ := exists_token_of_mem_problems isProblem
    rw [spanEq]
    exact TokenStream.cuts_lexemeSpan text placed isToken
  · obtain ⟨place, isRepeated, rfl⟩ := List.mem_map.mp isWarning
    have within :=
      ImportView.within_of_mem_places ((ImportView.repeated_sublist _).subset isRepeated)
    have cuts := within.cuts_trimmedSpan
    rwa [text_parse] at cuts

/-- A check of a text reports the problems of its parse and a warning about each import that names
the path of an earlier one, and nothing else. The problems come in the order of the text, each at
the significant text of a token. Warnings are merged into this order behind the problems at the same
position. All diagnostics start and end at boundaries of characters, which are converted to a line
and a column. -/
theorem check_merges {convert? : List Char → Nat → Option (Nat × Nat)}
    (converts : Text.ConvertsPositions convert?) (text : List Char) :
    ∃ problems warnings,
      (Events.parse text).run = some (.ok ((parse text).tree.map Token.slice, problems)) ∧
      warnings = (repeated (places (parse text).tree)).map warning ∧
      (problems.Pairwise fun left right => left.span.start ≤ right.span.start) ∧
      (∀ problem ∈ problems, ∃ steps,
        problem.span = ((Tokenizer.ofText text).after steps).current.lexemeSpan ∧
          ∀ earlier < steps, ((Tokenizer.ofText text).after earlier).kind ≠ .endOfFile) ∧
      (check text).filter Diagnostic.isError = problems ∧
      (check text).filter (!Diagnostic.isError ·) = warnings ∧
      (check text).Pairwise Diagnostic.Precedes ∧
      ∀ diagnostic ∈ check text,
        (Text.slice? diagnostic.span.start diagnostic.span.stop text).isSome ∧
          (convert? text diagnostic.span.start).isSome ∧
            (convert? text diagnostic.span.stop).isSome := by
  have errors : ∀ problem ∈ (parse text).problems, problem.isError := by
    intro problem inside
    rw [Diagnostic.isError, (exists_token_of_mem_problems inside).1]
    rfl
  have noErrors : ∀ found ∈ (repeated (places (parse text).tree)).map warning,
      found.isError = false := by
    intro found inside
    obtain ⟨place, -, rfl⟩ := List.mem_map.mp inside
    rfl
  obtain ⟨problemsEq, warningsEq⟩ := Diagnostic.filter_isError_mergeSort errors noErrors
    (pairwise_problems text) (pairwise_warnings _)
  refine ⟨_, _, Events.parse_eq text, rfl, pairwise_problems text, ?_, ?_, ?_, ?_, ?_⟩
  · intro problem inside
    obtain ⟨-, placed, isToken, spanEq⟩ := exists_token_of_mem_problems inside
    obtain ⟨steps, bound, placedEq⟩ := List.mem_iff_getElem.mp isToken
    have found : (TokenStream.scan text).placed[steps]? = some placed := by
      rw [List.getElem?_eq_getElem bound, placedEq]
    refine ⟨steps, ?_, fun earlier before => Events.kind_after text ?_⟩
    · rw [Events.current_after text found, spanEq]
    · rw [Events.Source.placed_ofText, List.length_append, List.length_singleton] at bound
      omega
  · rw [check_eq, problemsEq]
  · rw [check_eq, warningsEq]
  · rw [check_eq]
    exact Diagnostic.pairwise_mergeSort_append errors noErrors
  · intro diagnostic inside
    have cuts := cuts_of_mem_check inside
    obtain ⟨startCuts, stopCuts⟩ := cuts.isSome_splitAt?
    exact ⟨cuts.isSome_slice?, (converts _ _).mpr startCuts, (converts _ _).mpr stopCuts⟩

/-- An import that is repeated, and a semicolon too many. -/
theorem check_merges_repeated :
    let text := "import a;\nimport a;\n;".toList
    Text.ConvertsPositions Text.lineColumn? ∧
      (check text).filter Diagnostic.isError =
        [⟨.error, "expected a declaration, found `;`", ⟨20, 21⟩⟩] ∧
      (check text).filter (!Diagnostic.isError ·) =
        [⟨.warning, "duplicate import of `a`", ⟨10, 19⟩⟩] ∧
      (check text).Pairwise Diagnostic.Precedes ∧
      ∀ diagnostic ∈ check text, (Text.lineColumn? text diagnostic.span.start).isSome := by
  intro text
  obtain ⟨_, _, parsed, rfl, _, _, errors, others, ordered, within⟩ :=
    check_merges Text.convertsPositions_lineColumn? text
  have same := (Events.parse_eq text).symm.trans parsed
  obtain ⟨-, rfl⟩ := Prod.mk.inj (Except.ok.inj (Option.some.inj same))
  refine ⟨Text.convertsPositions_lineColumn?, ?_, ?_, ordered, fun diagnostic inside => ?_⟩
  · rw [errors]
    decide +kernel
  · rw [others]
    decide +kernel
  · exact (within diagnostic inside).2.1

end SourceTree

end ServiceAnnotator
