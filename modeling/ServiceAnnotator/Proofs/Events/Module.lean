import ServiceAnnotator.Proofs.Events.Declaration
import ServiceAnnotator.Proofs.Grammar.Lossless

/-!
# Modules by events

The members of a module are read one by one until only the end of the file is ahead. Its token is
the last one in the tree.
-/

namespace ServiceAnnotator

namespace Grammar

variable {α : Type} [Kinded α]

theorem fst_plainRun_ne {kind : Kind} (real : kind ≠ .tombstone) (depth : Nat) (tokens : List α) :
    (plainRun kind depth tokens).1 ≠ .tombstone := by
  cases fst_plainRun kind depth tokens with
  | inl same =>
    rw [same]
    exact real
  | inr isClass =>
    rw [isClass]
    decide

/-- No declaration is of the kind that marks an event as void. -/
theorem fst_declaration_ne (tokens : List α) : (declaration tokens).1 ≠ .tombstone := by
  intro void
  cases tokens with
  | nil => cases void
  | cons first rest =>
    rw [declaration] at void
    split at void
    · rw [service] at void
      split at void
      · exact fst_plainRun_ne (by decide) 0 rest void
      · cases void
    · split at void
      · rename_i kind decided
        refine fst_plainRun_ne ?_ 0 (first :: rest) void
        intro same
        rw [same] at decided
        exact declarationKind?_ne_tombstone _ decided
      · cases void

end Grammar

namespace Events

variable {source : Source} {parser : Parser} {ahead rest : List PlacedToken} {first : PlacedToken}

/-- A declaration is read with its metadata and its qualifiers. -/
theorem reads_member (stands : Stands source parser ahead) :
    Reads source parser member () (Grammar.member ahead) := by
  rw [member, Grammar.member_eq]
  apply (runs_openMember stands).andThen
  intro marker opened holds
  obtain ⟨before, rfl, opens, standsOpen⟩ := holds
  have marks := reads_advanceWhile (p := Grammar.qualifiers.contains) (by decide) standsOpen
  apply marks.step
  intro behind so
  apply so.step (reads_declaration so.stands)
  intro behind so
  exact opens.complete so _ (Grammar.fst_declaration_ne _)

/-- The members of a module are read one by one. -/
theorem reads_items {parser : Parser} {ahead : List PlacedToken}
    (stands : Stands source parser ahead) :
    Reads source parser items () (Grammar.items ahead) := by
  have again {behind : Parser} {further : List PlacedToken}
      (fewer : further.length < ahead.length) (standsBehind : Stands source behind further) :
      Reads source behind (parser.onward items) () (Grammar.items further) :=
    stands.onward standsBehind fewer (reads_items standsBehind)
  apply Runs.recurring
  apply stands.peek
  cases ahead with
  | nil =>
    rw [Grammar.next, if_pos rfl, Grammar.items]
    exact .pure ⟨rfl, .none stands⟩
  | cons first rest =>
    have real := stands.kind_ne_endOfFile
    rw [Grammar.next, if_neg real, Grammar.items_cons]
    by_cases isImport : Kinded.kind first = .importKw
    · rw [if_pos isImport, if_pos isImport]
      have fewer := Nat.lt_succ_of_le (Grammar.length_rest_importDeclaration_le first rest)
      exact (reads_importDeclaration stands).step fun behind so => so.last (again fewer so.stands)
    · rw [if_neg isImport, if_neg isImport]
      by_cases starts : Grammar.startsMember (Kinded.kind first)
      · rw [if_pos starts, if_pos starts]
        have fewer : (Grammar.member (first :: rest)).rest.length < (first :: rest).length :=
          Grammar.length_rest_member_lt starts
        exact (reads_member stands).step fun behind so => so.last (again fewer so.stands)
      · rw [if_neg starts, if_neg starts]
        have further (problem : Problem) :
            Reads source parser (do errorAndBump problem; parser.onward items) ()
              (((Grammar.items rest).cons (.node .error [.leaf first])).report problem
                (rest.length + 1)) := by
          apply (reads_errorAndBump stands problem).step
          intro behind so
          have standsBehind : Stands source behind rest := so.stands
          exact so.last (again (Nat.lt_succ_self _) standsBehind)
        by_cases semicolon : Kinded.kind first = .semicolon
        · rw [if_pos semicolon, if_pos semicolon]
          exact further .straySemicolon
        · rw [if_neg semicolon, if_neg semicolon]
          exact further .expectedModuleLevelDeclaration
termination_by ahead.length
decreasing_by exact fewer

/-- A whole document is read with the end of the file. -/
theorem runs_modulePart (stands : Stands source parser ahead) :
    Runs modulePart parser fun _ behind =>
      (∃ events, behind.events = parser.events ++ events ∧ Describes events
        [.node .modulePart ((Grammar.items ahead).elements ++ [.leaf source.stop])]) ∧
      behind.diagnostics =
        parser.diagnostics ++ (Grammar.items ahead).reports.map source.diagnose ∧
      behind.markers = parser.markers := by
  rw [modulePart]
  apply stands.start
  apply (reads_items stands.opened).step
  intro behind so
  have standsLast : Stands source behind [] := Grammar.rest_items ahead ▸ so.stands
  obtain ⟨inner, innerEq, describes⟩ := so.events
  have current : behind.tokenizer.current = source.stop := standsLast.yields.1
  have takes : Runs advanceEndOfFile behind fun _ last => last = { behind with
      events := behind.events ++ [.token source.stop], tokenizer := behind.tokenizer.next } := by
    rw [advanceEndOfFile, ← current]
    apply standsLast.peek
    exact .thence rfl ⟨(), _, rfl, rfl⟩
  apply takes.andThen
  intro _ last same
  have opened : last.events = parser.events ++ .tombstone :: (inner ++ [.token source.stop]) := by
    rw [same, innerEq, Parser.opened]
    simp
  apply (Runs.discard ((runs_complete opened).imp fun _ _ holds => holds.2)).imp
  intro _ final ends
  rw [ends]
  refine ⟨⟨_, rfl, (describes.append (.token source.stop .nil)).wrap (by decide)⟩, ?_, ?_⟩
  · rw [same]
    exact so.diagnostics
  · rw [same, so.markers]
    rfl

end Events

end ServiceAnnotator
