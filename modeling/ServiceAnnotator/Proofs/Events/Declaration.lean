import ServiceAnnotator.Proofs.Events.Metadata

/-!
# Declarations by events

The rules for imports and for declarations read what the grammar reads. A declaration gives its kind
only when it has been read, so the node around it is opened without one.
-/

namespace ServiceAnnotator.Events

variable {source : Source} {parser : Parser} {ahead rest : List PlacedToken} {first : PlacedToken}

/-! ## Imports -/

/-- The name of a module is there if it takes a token. -/
theorem reads_importedName (stands : Stands source parser ahead) :
    Reads source parser importedName ()
      (if Grammar.runLength (.ofList [.semicolon, .importKw]) 0 ahead = 0 then
        .problem .expectedModuleName ahead
      else .tokens (Grammar.runLength (.ofList [.semicolon, .importKw]) 0 ahead) ahead) := by
  rw [importedName]
  apply (reads_balanced stands _ 0 false).step
  intro behind so
  rw [Bool.false_or]
  by_cases nothing : Grammar.runLength (.ofList [.semicolon, .importKw]) 0 ahead = 0
  · rw [nothing] at so ⊢
    rw [if_pos rfl, bne_self_eq_false, if_neg Bool.false_ne_true]
    have stands : Stands source behind ahead := so.stands
    exact so.last (reads_error stands _)
  · rw [bne_iff_ne.mpr nothing, if_pos rfl, if_neg nothing]
    exact .pure ⟨rfl, so⟩

theorem reads_importDeclaration (stands : Stands source parser (first :: rest)) :
    Reads source parser importDeclaration () (Grammar.importDeclaration first rest) := by
  rw [importDeclaration]
  apply stands.start
  apply (reads_advance stands.opened).step
  intro behind so
  have standsName : Stands source behind rest := so.stands
  apply so.step (reads_importedName standsName)
  intro behind so
  apply so.step (reads_expect so.stands .semicolon (by decide)).discard
  intro behind so
  rw [Parsed.andThen_assoc] at so
  exact so.complete .importDeclaration (by decide)

/-! ## Runs of tokens -/

/-- A declaration that is kept as it is ends where the grammar ends it, and has the same kind. -/
theorem reads_plainRun (stands : Stands source parser ahead) (kind : Kind) (depth : Nat) :
    Reads source parser (plainRun kind depth) (Grammar.plainRun kind depth ahead).1
      (Grammar.plainRun kind depth ahead).2 := by
  induction ahead generalizing parser kind depth with
  | nil =>
    apply Runs.recurring
    apply stands.peek
    rw [Grammar.next, if_pos rfl]
    exact (reads_error stands _).step fun behind so => .pure ⟨rfl, so⟩
  | cons first rest ih =>
    have real := stands.kind_ne_endOfFile
    have again {behind : Parser} (standsBehind : Stands source behind rest) (kind : Kind)
        (depth : Nat) : Reads source behind (parser.onward (plainRun kind depth))
          (Grammar.plainRun kind depth rest).1 (Grammar.plainRun kind depth rest).2 :=
      stands.onward standsBehind (Nat.lt_succ_self _) (ih standsBehind kind depth)
    have further (kind : Kind) (depth : Nat) :
        Reads source parser (do advance; parser.onward (plainRun kind depth))
          (Grammar.plainRun kind depth rest).1
          ((Grammar.plainRun kind depth rest).2.cons (.leaf first)) :=
      (reads_advance stands).step fun behind so => so.last (again so.stands kind depth)
    rw [Grammar.plainRun_cons]
    apply Runs.recurring
    apply stands.peek
    rw [Grammar.next, if_neg real]
    by_cases ends : Kinded.kind first = .semicolon ∧ depth = 0
    · rw [if_pos ends, if_pos ends]
      exact (reads_advance stands).step fun behind so => .pure ⟨rfl, so⟩
    · rw [if_neg ends, if_neg ends]
      by_cases isClass :
          Kinded.kind first = .classKw ∧ depth = 0 ∧ kind = .moduleVarDeclaration
      · rw [if_pos isClass, if_pos isClass]
        exact further .classDefinition depth
      · rw [if_neg isClass, if_neg isClass]
        cases Grammar.bracket (Kinded.kind first) with
        | opens => exact further kind (depth + 1)
        | neither => exact further kind depth
        | closes =>
          by_cases outside : depth = 0
          · simp only [outside, ↓reduceIte]
            apply (reads_errorAndBump stands .unmatchedCloser).step
            intro behind so
            exact so.last (again so.stands kind 0)
          · simp only [outside, ↓reduceIte]
            apply (reads_advance stands).step
            intro behind so
            have standsBehind : Stands source behind rest := so.stands
            apply standsBehind.peek
            by_cases last : Kinded.kind first = .rightBrace ∧ depth = 1 ∧
                Grammar.endsDeclaration (Grammar.next rest)
            · rw [if_pos last, if_pos last]
              exact .pure ⟨rfl, so⟩
            · rw [if_neg last, if_neg last]
              exact so.last (again standsBehind kind (depth - 1))

/-! ## Services -/

theorem reads_segments {parser : Parser} {ahead : List PlacedToken}
    (stands : Stands source parser ahead) :
    Reads source parser segments () (.tokens (Grammar.pathLength ahead) ahead) := by
  apply Runs.recurring
  apply stands.eat .slash (by decide)
  · intro first rest behind split slash so
    have shorter : rest.length < ahead.length := split ▸ Nat.lt_succ_self _
    rw [if_pos rfl, split, Grammar.pathLength_cons, if_pos slash]
    apply so.eat .identifier (by decide)
    · intro second names last (behindSlash : rest = second :: names) name so
      subst behindSlash
      have fewer : names.length < ahead.length := Nat.lt_trans (Nat.lt_succ_self _) shorter
      have standsLast : Stands source last names := so.stands
      rw [Grammar.next, if_pos name, Nat.add_comm]
      exact so.last (stands.onward standsLast fewer (reads_segments standsLast))
    · intro (noName : Grammar.next rest ≠ .identifier)
      have standsBehind : Stands source behind rest := so.stands
      rw [if_neg noName, ← tokens_one_andThen]
      exact so.last (stands.onward standsBehind shorter (reads_segments standsBehind))
  · intro noSlash
    have nothing : Grammar.pathLength ahead = 0 := by
      cases ahead with
      | nil => rfl
      | cons first rest =>
        rw [Grammar.next] at noSlash
        rw [Grammar.pathLength_cons, if_neg noSlash]
    rw [if_neg Bool.false_ne_true, nothing]
    exact .pure ⟨rfl, .none stands⟩
termination_by ahead.length

theorem reads_attachPoint (stands : Stands source parser ahead) :
    Reads source parser attachPoint () (Grammar.attachPoint ahead) := by
  rw [attachPoint, Grammar.attachPoint]
  apply stands.peek
  by_cases path : Grammar.next ahead = .slash
  · rw [if_pos path, if_pos path]
    apply stands.start
    exact (reads_segments stands.opened).step
      fun behind so => so.complete .absoluteResourcePath (by decide)
  · rw [if_neg path, if_neg path]
    by_cases literal : Grammar.next ahead = .stringLiteral
    · obtain ⟨first, rest, rfl, -⟩ := Grammar.exists_cons_of_next literal (by decide)
      rw [if_pos literal, if_pos literal]
      exact reads_advance stands
    · rw [if_neg literal, if_neg literal]
      exact .pure ⟨rfl, .none stands⟩

theorem reads_serviceType (stands : Stands source parser ahead) :
    Reads source parser serviceType () (Grammar.serviceType ahead) := by
  rw [serviceType, Grammar.serviceType]
  apply stands.peek
  by_cases named : Grammar.next ahead = .identifier
  · rw [if_pos named, if_pos named]
    exact reads_nameReference stands _
  · rw [if_neg named, if_neg named]
    exact .pure ⟨rfl, .none stands⟩

theorem reads_listenerClause (stands : Stands source parser ahead) :
    Reads source parser listenerClause () (Grammar.listenerClause ahead) := by
  rw [listenerClause, Grammar.listenerClause]
  apply (reads_expect stands .onKw (by decide)).step
  intro behind so
  rw [Grammar.expect_eq (by decide)] at so
  by_cases isNext : Grammar.next ahead = .onKw
  · rw [if_pos isNext] at so ⊢
    rw [isNext, beq_self_eq_true, if_pos rfl]
    exact so.last (reads_expressionList so.stands)
  · rw [if_neg isNext] at so ⊢
    rw [beq_false_of_ne isNext, if_neg Bool.false_ne_true]
    exact .pure ⟨rfl, so⟩

/-- A run of tokens in braces is taken with both braces. -/
theorem reads_block (stands : Stands source parser (first :: rest))
    (opens : Kinded.kind first = .leftBrace) :
    Reads source parser (block .unclosedServiceBody) ()
      ((Parsed.tokens (1 + Grammar.runLength .empty 0 rest) (first :: rest)).andThen
        Grammar.bodyEnd) := by
  rw [block]
  apply stands.peek
  rw [Grammar.next, opens]
  refine .thence rfl ?_
  apply (reads_advance stands).step
  intro behind so
  have standsRun : Stands source behind rest := so.stands
  apply so.step (reads_balanced standsRun .empty 0 false).discard
  intro behind so
  rw [tokens_one_andThen] at so
  generalize Parsed.tokens (1 + Grammar.runLength .empty 0 rest) (first :: rest) = run at so ⊢
  rw [Parsed.andThen, Grammar.bodyEnd]
  apply so.eat .rightBrace (by decide)
  · intro brace rest last split closes so
    rw [if_pos rfl, split, Grammar.next, if_pos closes]
    exact .pure ⟨rfl, so⟩
  · intro unclosed
    rw [if_neg Bool.false_ne_true, if_neg unclosed]
    exact so.last (reads_error so.stands .unclosedServiceBody)

theorem reads_serviceBody (stands : Stands source parser ahead) :
    Reads source parser serviceBody () (Grammar.serviceBody ahead) := by
  rw [serviceBody, Grammar.serviceBody]
  apply stands.peek
  by_cases opens : Grammar.next ahead = .leftBrace
  · obtain ⟨first, rest, rfl, brace⟩ := Grammar.exists_cons_of_next opens (by decide)
    rw [if_pos opens, if_pos opens]
    apply stands.start
    exact (reads_block stands.opened brace).step
      fun behind so => so.complete .serviceBody (by decide)
  · rw [if_neg opens, if_neg opens]
    exact reads_error stands _

/-- A service is read from its keyword on. -/
theorem reads_service (stands : Stands source parser (first :: rest)) :
    Reads source parser service (Grammar.service first rest).1 (Grammar.service first rest).2 := by
  rw [service, Grammar.service]
  apply (reads_advance stands).step
  intro behind so
  have standsBehind : Stands source behind rest := so.stands
  apply standsBehind.peek
  by_cases isClass : Grammar.next rest = .classKw
  · rw [if_pos isClass, if_pos isClass]
    exact so.last (reads_plainRun standsBehind .classDefinition 0)
  · rw [if_neg isClass, if_neg isClass]
    apply so.step (reads_serviceType standsBehind)
    intro behind so
    apply so.step (reads_attachPoint so.stands)
    intro behind so
    apply so.step (reads_listenerClause so.stands)
    intro behind so
    apply so.step (reads_serviceBody so.stands)
    intro behind so
    refine .pure ⟨rfl, ?_⟩
    simp only [Parsed.andThen_assoc] at so ⊢
    exact so

/-! ## Declarations -/

theorem reads_declaration (stands : Stands source parser ahead) :
    Reads source parser declaration (Grammar.declaration ahead).1 (Grammar.declaration ahead).2 := by
  rw [declaration]
  apply stands.peek
  cases ahead with
  | nil =>
    simp only [Grammar.next]
    exact (reads_error stands _).step fun behind so => .pure ⟨rfl, so⟩
  | cons first rest =>
    rw [Grammar.next, Grammar.declaration]
    by_cases isService : Kinded.kind first = .serviceKw
    · rw [if_pos isService, if_pos isService]
      exact reads_service stands
    · rw [if_neg isService, if_neg isService]
      cases Grammar.declarationKind? (Kinded.kind first) with
      | some kind => exact reads_plainRun stands kind 0
      | none => exact (reads_error stands _).step fun behind so => .pure ⟨rfl, so⟩

end ServiceAnnotator.Events
