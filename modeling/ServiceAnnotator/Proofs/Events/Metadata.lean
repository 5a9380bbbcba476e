import ServiceAnnotator.Proofs.Events.Expression
import ServiceAnnotator.Proofs.Grammar.Frame.Member

/-!
# Metadata by events

Metadata is complete before the declaration that it belongs to is opened. It then gets this
declaration as its parent, so that it becomes the first child of a node that opens behind it.
-/

namespace ServiceAnnotator.Events

variable {source : Source} {parser : Parser} {ahead rest : List PlacedToken} {sign : PlacedToken}

theorem reads_optionalMapping (stands : Stands source parser ahead) :
    Reads source parser optionalMapping () (Grammar.mapping? ahead) := by
  rw [optionalMapping, Grammar.mapping?_eq]
  apply stands.peek
  cases ahead with
  | nil => exact .pure ⟨rfl, .none stands⟩
  | cons first rest =>
    rw [Grammar.next]
    by_cases opens : Kinded.kind first = .leftBrace
    · rw [if_pos opens, if_pos opens]
      exact reads_mapping stands opens
    · rw [if_neg opens, if_neg opens]
      exact .pure ⟨rfl, .none stands⟩

theorem reads_attachment (stands : Stands source parser (sign :: rest)) :
    Reads source parser attachment () (Grammar.attachment sign rest) := by
  rw [attachment]
  apply stands.start
  apply (reads_advance stands.opened).step
  intro behind so
  have standsName : Stands source behind rest := so.stands
  apply so.step (reads_nameReference standsName Grammar.attachmentRecovery)
  intro behind so
  apply so.step (reads_optionalMapping so.stands)
  intro behind so
  rw [Parsed.andThen_assoc] at so
  exact so.complete .annotationAttachment (by decide)

theorem reads_attachments {parser : Parser} {ahead : List PlacedToken}
    (stands : Stands source parser ahead) :
    Reads source parser attachments () (Grammar.attachments ahead) := by
  have again {behind : Parser} {further : List PlacedToken}
      (fewer : further.length < ahead.length) (standsBehind : Stands source behind further) :
      Reads source behind (parser.onward attachments) () (Grammar.attachments further) :=
    stands.onward standsBehind fewer (reads_attachments standsBehind)
  apply Runs.recurring
  apply stands.peek
  cases ahead with
  | nil =>
    rw [Grammar.attachments]
    exact .pure ⟨rfl, .none stands⟩
  | cons sign rest =>
    rw [Grammar.next, Grammar.attachments_cons]
    by_cases isSign : Kinded.kind sign = .atSign
    · rw [if_pos isSign, if_pos isSign]
      have fewer := Nat.lt_succ_of_le (Grammar.length_rest_attachment_le sign rest)
      exact (reads_attachment stands).step fun behind so => so.last (again fewer so.stands)
    · rw [if_neg isSign, if_neg isSign]
      exact .pure ⟨rfl, .none stands⟩
termination_by ahead.length
decreasing_by exact fewer

theorem countIn_documentationLine (tokens : List PlacedToken) :
    Grammar.countIn (.ofList [.documentationLine]) tokens =
      (tokens.takeWhile fun token => Kinded.kind token == .documentationLine).length := by
  have same : (fun token : PlacedToken =>
      (KindSet.ofList [.documentationLine]).contains (Kinded.kind token)) =
      fun token => Kinded.kind token == .documentationLine := by
    funext token
    simp only [KindSet.ofList, List.contains_cons, List.contains_nil, Bool.or_false]
  rw [Grammar.countIn, same]

theorem reads_documentation (stands : Stands source parser ahead) :
    Reads source parser documentation () (Grammar.documentation ahead) := by
  rw [documentation, Grammar.documentation, countIn_documentationLine]
  apply stands.peek
  cases ahead with
  | nil => exact .pure ⟨rfl, .none stands⟩
  | cons first rest =>
    have lines := reads_advanceWhile (p := (· == .documentationLine)) (by decide) stands.opened
    rw [Grammar.next]
    rw [List.takeWhile_cons] at lines ⊢
    by_cases isLine : Kinded.kind first = .documentationLine
    · rw [isLine, beq_self_eq_true] at lines ⊢
      rw [if_pos rfl, if_neg (by simp)]
      apply stands.start
      exact lines.step fun behind so => so.complete .documentation (by decide)
    · rw [if_neg isLine, beq_false_of_ne isLine]
      exact .pure ⟨rfl, .none stands⟩

/-! ## The parent of metadata -/

/-- A complete node gets a parent behind it. -/
theorem runs_precede {first : Kind} {before front : List Event} (any : parser.positions = 0)
    (complete : parser.events = before ++ .start first none :: (front ++ [.finish])) :
    Runs (CompletedMarker.precede ⟨before.length⟩) parser fun marker behind =>
      marker = ⟨parser.events.length⟩ ∧ behind = { parser with
        events := before ++ .start first (some (front.length + 2)) :: (front ++ [.finish]) ++
          [.tombstone]
        markers := parser.markers + 1 } := by
  have openedEq : parser.opened.events =
      before ++ .start first none :: (front ++ [.finish] ++ [.tombstone]) := by
    rw [Parser.opened, complete, List.append_assoc, List.cons_append]
  have found : parser.opened.events[before.length]? = some (.start first none) := by
    rw [openedEq, List.getElem?_append_right (Nat.le_refl _), Nat.sub_self]
    rfl
  have written (parent? : Option Nat) :
      parser.opened.events.set before.length (.start first parent?) =
        before ++ .start first parent? :: (front ++ [.finish]) ++ [.tombstone] := by
    rw [openedEq, List.set_append_right _ _ (Nat.le_refl _), Nat.sub_self, List.set_cons_zero,
      ← List.cons_append, List.append_assoc]
  have lengthEq : parser.events.length = before.length + (front.length + 2) := by
    rw [complete]
    simp [Nat.add_assoc]
  have ordered : ¬parser.events.length < before.length := by
    rw [lengthEq]
    exact Nat.not_lt.mpr (Nat.le_add_right ..)
  have distance : parser.events.length - before.length = front.length + 2 := by
    rw [lengthEq, Nat.add_sub_cancel_left]
  rw [CompletedMarker.precede]
  apply (runs_start any).andThen
  rintro _ _ ⟨rfl, rfl⟩
  refine .thence rfl ?_
  simp only [found, if_neg ordered, distance]
  refine ⟨_, _, rfl, rfl, ?_⟩
  simp only [written]
  rfl

/-- Where metadata starts, its parts are put into a node. -/
theorem metadata_eq_wrap
    (starts : Grammar.next ahead = .documentationLine ∨ Grammar.next ahead = .atSign) :
    Grammar.metadata ahead = (Grammar.metadataParts ahead).wrap .metadata := by
  cases ahead with
  | nil => cases starts <;> contradiction
  | cons first rest =>
    have shorter : (Grammar.metadata (first :: rest)).rest.length < (first :: rest).length :=
      Grammar.length_rest_metadata_lt starts
    rw [Grammar.rest_metadata] at shorter
    rw [Grammar.metadata_eq, if_neg]
    intro empty
    rw [Grammar.metadataParts_eq_none (List.isEmpty_iff.mp empty)] at shorter
    exact Nat.lt_irrefl _ shorter

/-- Metadata is read where one of its parts starts, and its node is complete then. -/
theorem runs_metadata (stands : Stands source parser ahead)
    (starts : Grammar.next ahead = .documentationLine ∨ Grammar.next ahead = .atSign) :
    Runs metadata parser fun given behind => given = some ⟨parser.events.length⟩ ∧
      After source parser behind (Grammar.metadata ahead) ∧
      ∃ front, behind.events = parser.events ++ .start .metadata none :: (front ++ [.finish]) ∧
        Describes front (Grammar.metadataParts ahead).elements := by
  rw [metadata]
  apply stands.peek
  rw [if_pos starts]
  apply stands.start
  apply (reads_documentation stands.opened).step
  intro behind so
  apply so.step (reads_attachments so.stands)
  intro behind so
  obtain ⟨front, frontEq, describes⟩ := so.events
  have opened : behind.events = parser.events ++ .tombstone :: front := by
    rw [frontEq, Parser.opened, List.append_assoc, List.singleton_append]
  apply (runs_complete opened).andThen
  intro completed last holds
  obtain ⟨rfl, rfl⟩ := holds
  refine .pure ⟨rfl, ?_, front, rfl, describes⟩
  rw [metadata_eq_wrap starts]
  refine ⟨⟨so.stands.suffix, so.stands.yields, so.stands.any⟩,
    ⟨_, rfl, describes.wrap (by decide)⟩, so.diagnostics, ?_⟩
  rw [so.markers]
  rfl

/-- A declaration opens behind its metadata and is to hold it. -/
theorem runs_openMember (stands : Stands source parser ahead) :
    Runs openMember parser fun marker behind => ∃ before, marker = ⟨before.length⟩ ∧
      Opens source parser behind before (Grammar.metadata ahead) ∧
      Stands source behind (Grammar.metadata ahead).rest := by
  rw [openMember]
  by_cases starts : Grammar.next ahead = .documentationLine ∨ Grammar.next ahead = .atSign
  · apply (runs_metadata stands starts).andThen
    intro given behind holds
    obtain ⟨rfl, so, front, frontEq, describes⟩ := holds
    apply (runs_precede so.stands.any frontEq).imp
    intro marker last holds
    obtain ⟨rfl, rfl⟩ := holds
    refine ⟨parser.events ++ .start .metadata (some (front.length + 2)) :: (front ++ [.finish]), ?_,
      ?_, so.stands.suffix, so.stands.yields, so.stands.any⟩
    · rw [frontEq]
      simp
    · refine ⟨rfl, fun {kind inner children} real inside => ?_, so.diagnostics, ?_⟩
      · rw [metadata_eq_wrap starts]
        refine ⟨_, ?_, .preceded (by decide) real describes inside .nil⟩
        simp only [List.append_assoc, List.cons_append, List.nil_append]
      · rw [so.markers]
  · have nothing : Grammar.metadata ahead = .none ahead := by
      cases ahead with
      | nil =>
        simp [Grammar.metadata, Grammar.documentation, Grammar.countIn, Grammar.attachments,
          Parsed.andThen, Parsed.none]
      | cons first rest =>
        exact Grammar.metadata_eq_none (fun line => starts (.inl line)) fun sign => starts (.inr sign)
    have none : Runs metadata parser fun given behind => given = none ∧ behind = parser := by
      rw [metadata]
      apply stands.peek
      rw [if_neg starts]
      exact .pure ⟨rfl, rfl⟩
    apply none.andThen
    intro given behind holds
    obtain ⟨rfl, rfl⟩ := holds
    rw [nothing]
    apply (runs_start stands.any).imp
    rintro _ _ ⟨rfl, rfl⟩
    exact ⟨_, rfl, .start source behind ahead, stands.opened⟩

end ServiceAnnotator.Events
