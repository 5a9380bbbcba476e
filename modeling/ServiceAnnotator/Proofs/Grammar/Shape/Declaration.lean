import ServiceAnnotator.Proofs.Grammar.Shape

/-!
# Declarations in shape

Services and imports hold their parts in order, and a flat declaration holds tokens and errors
behind what it starts with. The children of a module are imports, declarations and errors.
-/

open scoped Computability

namespace ServiceAnnotator.Grammar

open Parsed (tokens_add)
open Shape (token node nodeWhere optional anyToken oneOf ofKind mem_token le_optional one_le_optional
  le_mul_optional le_optional_mul le_kstar_mul mul_kstar_mul_le node_le_nodeWhere)

variable {α : Type} [Kinded α]

/-! ## Imports and services -/

theorem fits_importDeclaration {keyword : α} (isImport : Kinded.kind keyword = .importKw)
    (tokens : List α) : (importDeclaration keyword tokens).Fits (node .importDeclaration) := by
  apply Parsed.Fits.wrap
  rw [ofKind, mul_assoc]
  refine Parsed.Fits.cons (Parsed.Fits.andThen ?_ (fits_expect _ _)) (mem_token isImport)
  split
  · exact (Parsed.Fits.problem _ _).imp one_le_kstar
  · exact fits_anyTokens _ _

theorem fits_path (tokens : List α) :
    (Parsed.tokens (pathLength tokens) tokens).Fits
      (if next tokens = .slash then Shape.segment * Shape.segment∗ else 1) := by
  have more (tokens : List α) :
      (if next tokens = .slash then Shape.segment * Shape.segment∗ else 1) ≤ Shape.segment∗ := by
    split
    · exact mul_kstar_le_kstar
    · exact one_le_kstar
  cases tokens with
  | nil =>
    rw [if_neg (show ¬next ([] : List α) = .slash by rw [next]; decide)]
    exact .none []
  | cons first rest =>
    rw [pathLength_cons]
    by_cases isSlash : Kinded.kind first = .slash
    · have slash : (Parsed.tokens 1 (first :: rest)).Fits (token .slash) :=
        .leaf (mem_token isSlash) rest
      rw [if_pos isSlash, if_pos (show next (first :: rest) = .slash from isSlash)]
      split
      next named =>
        have segment : (Parsed.tokens 2 (first :: rest)).Fits Shape.segment := by
          rw [tokens_add 1 1]
          exact slash.andThen ((fits_next named (by decide) (mem_token rfl)).imp le_optional)
        rw [tokens_add]
        exact segment.andThen ((fits_path (rest.drop 1)).imp (more _))
      next =>
        rw [tokens_add]
        exact (slash.imp le_mul_optional).andThen ((fits_path rest).imp (more _))
    · rw [if_neg isSlash, if_neg (show ¬next (first :: rest) = .slash from isSlash)]
      exact .none _
termination_by tokens.length
decreasing_by
  all_goals
    simp only [List.length_drop, List.length_cons]
    omega

theorem fits_attachPoint (tokens : List α) :
    (attachPoint tokens).Fits
      (optional (node .absoluteResourcePath + token .stringLiteral)) := by
  rw [attachPoint]
  split
  next isPath =>
    have path := fits_path tokens
    rw [if_pos isPath] at path
    exact Parsed.Fits.imp (.wrap path) (le_sup_left.trans le_optional)
  next =>
    split
    next literal =>
      exact (fits_next literal (by decide) (mem_token rfl)).imp (le_sup_right.trans le_optional)
    next => exact (Parsed.Fits.none _).imp one_le_optional

theorem fits_serviceType (tokens : List α) :
    (serviceType tokens).Fits
      (if next tokens = .identifier then nodeWhere Kind.isReference else 1) := by
  rw [serviceType, nameReference_eq]
  split
  next named => exact fits_namedReference named
  next => exact .none _

theorem fits_listenerClause (tokens : List α) :
    (listenerClause tokens).Fits (optional (token .onKw * node .expressionList)) := by
  rw [listenerClause]
  split
  next isOn =>
    refine Parsed.Fits.imp (.andThen ?_ (.wrap (fits_listeners _))) le_optional
    exact fits_next isOn (by decide) (mem_token rfl)
  next => exact (Parsed.Fits.problem _ _).imp one_le_optional

theorem fits_bodyEnd (tokens : List α) :
    (bodyEnd tokens).Fits (optional (token .rightBrace)) := by
  rw [bodyEnd]
  split
  next brace => exact (fits_next brace (by decide) (mem_token rfl)).imp le_optional
  next => exact (Parsed.Fits.problem _ _).imp one_le_optional

theorem fits_serviceBody (tokens : List α) :
    (serviceBody tokens).Fits (optional (node .serviceBody)) := by
  rw [serviceBody]
  split
  next brace =>
    refine Parsed.Fits.imp (.wrap (.andThen ?_ (fits_bodyEnd _))) le_optional
    rw [tokens_add]
    exact (fits_next brace (by decide) (mem_token rfl)).andThen (fits_anyTokens _ _)
  next => exact (Parsed.Fits.problem _ _).imp one_le_optional

theorem fits_serviceParts {keyword : α} (isService : Kinded.kind keyword = .serviceKw)
    (tokens : List α) : ((serviceParts tokens).cons (.leaf keyword)).Fits Shape.service := by
  have type : (serviceType tokens).Fits (optional (nodeWhere Kind.isReference)) := by
    refine (fits_serviceType tokens).imp ?_
    split
    · exact le_optional
    · exact one_le_optional
  have parts := ((type.andThen (fits_attachPoint _)).andThen (fits_listenerClause _)).andThen
    (fits_serviceBody _)
  have whole := parts.cons (mem_token isService)
  rw [← mul_assoc, ← mul_assoc, ← mul_assoc] at whole
  exact whole

/-! ## Declarations that are not taken apart -/

/-- What is read of a flat declaration of a kind: tokens and errors, among them the keyword
of a class if a variable turned out to be one. -/
def RunFits (kind : Kind) (run : Kind × Parsed α) : Prop :=
  (run.1 = kind ∧ run.2.Fits Shape.rough∗) ∨
    (kind = .moduleVarDeclaration ∧ run.1 = .classDefinition ∧
      run.2.Fits (Shape.rough∗ * (token .classKw * Shape.rough∗)))

theorem RunFits.map {kind : Kind} {run : Kind × Parsed α} (fits : RunFits kind run)
    {step : Parsed α → Parsed α}
    (rough : ∀ parsed shape, parsed.Fits shape → (step parsed).Fits (Shape.rough * shape)) :
    RunFits kind (run.map id step) := by
  rcases fits with ⟨same, plain⟩ | ⟨isVariable, isClass, found⟩
  · exact .inl ⟨same, (rough _ _ plain).imp mul_kstar_le_kstar⟩
  · exact .inr ⟨isVariable, isClass, (rough _ _ found).imp mul_kstar_mul_le⟩

theorem RunFits.cons {kind : Kind} {run : Kind × Parsed α} (fits : RunFits kind run) (item : α) :
    RunFits kind (run.map id (Parsed.cons (.leaf item))) :=
  fits.map fun _ _ inside => inside.cons (.inl (Shape.mem_anyToken _))

theorem RunFits.last (kind : Kind) (item : α) (rest : List α) :
    RunFits kind (kind, ⟨[.leaf item], [], rest⟩) := by
  have alone : [.token (Kinded.kind item)] ∈ Shape.rough := .inl (Shape.mem_anyToken _)
  exact .inl ⟨rfl, .leaf (Shape.mem_kstar_of_forall (List.forall_mem_singleton.mpr alone)) rest⟩

theorem fits_plainRun (kind : Kind) (depth : Nat) (tokens : List α) :
    RunFits kind (plainRun kind depth tokens) := by
  induction tokens generalizing kind depth with
  | nil => exact .inl ⟨rfl, (Parsed.Fits.problem _ _).imp one_le_kstar⟩
  | cons token tokens ih =>
    rw [plainRun_cons]
    split
    · exact .last kind token tokens
    · split
      next isClass =>
        obtain ⟨isClass, _, rfl⟩ := isClass
        rcases ih .classDefinition depth with ⟨same, plain⟩ | ⟨other, _⟩
        · exact .inr ⟨rfl, same, (plain.cons (mem_token isClass)).imp le_kstar_mul⟩
        · cases other
      next =>
        split
        · exact (ih _ _).cons token
        · split
          · exact (ih _ _).map fun _ _ inside =>
              ((inside.consError token).report _ _).imp (mul_le_mul_left le_sup_right _)
          · split
            · exact .last kind token tokens
            · exact (ih _ _).cons token
        · exact (ih _ _).cons token

/-! ## Declarations -/

/-- What a module variable starts with. -/
theorem start_le_variableStart {first : Kind}
    (starts : declarationKind? first = some .moduleVarDeclaration) :
    token first ≤ Shape.variableStart := by
  have inside : first ∈ [.identifier, .leftBracket, .leftParen] := by
    cases first <;> cases starts <;> decide
  rintro _ rfl
  exact ⟨first, inside, rfl⟩

/-- What a flat declaration starts with. -/
theorem start_le_declaration {first kind : Kind} (starts : declarationKind? first = some kind) :
    token first * Shape.rough∗ ≤ Shape.declaration kind := by
  by_cases isVariable : kind = .moduleVarDeclaration
  · subst isVariable
    exact mul_le_mul_left (start_le_variableStart starts) _
  · cases first <;> cases starts
    all_goals first | exact absurd rfl isVariable | exact le_rfl | exact le_optional_mul

/-- A flat declaration takes the token that it starts with. -/
theorem plainRun_start {first : α} {kind : Kind}
    (starts : declarationKind? (Kinded.kind first) = some kind) (rest : List α) :
    ∃ depth, plainRun kind 0 (first :: rest) =
      (plainRun kind depth rest).map id (Parsed.cons (.leaf first)) := by
  have noEnd : Kinded.kind first ≠ .semicolon := by
    intro isEnd
    rw [isEnd] at starts
    cases starts
  have noClass : ¬(Kinded.kind first = .classKw ∧ kind = .moduleVarDeclaration) := by
    rintro ⟨isClass, rfl⟩
    rw [isClass] at starts
    cases starts
  have noCloser : bracket (Kinded.kind first) ≠ .closes := by
    revert starts
    cases Kinded.kind first <;> intro starts <;> cases starts <;> decide
  rw [plainRun_cons, if_neg fun ends => noEnd ends.1, if_neg fun ⟨isClass, _, isVariable⟩ =>
    noClass ⟨isClass, isVariable⟩]
  cases direction : bracket (Kinded.kind first) with
  | opens => exact ⟨1, rfl⟩
  | closes => exact absurd direction noCloser
  | neither => exact ⟨0, rfl⟩

/-- A flat declaration is of its kind, or it is the class that a variable turned out to be. -/
theorem fits_flat {first : α} {kind : Kind}
    (starts : declarationKind? (Kinded.kind first) = some kind) (rest : List α) :
    (plainRun kind 0 (first :: rest)).2.Fits
      (Shape.declaration (plainRun kind 0 (first :: rest)).1) := by
  obtain ⟨depth, startEq⟩ := plainRun_start starts rest
  rw [startEq, Prod.map_fst, Prod.map_snd, id]
  rcases fits_plainRun kind depth rest with ⟨same, plain⟩ | ⟨rfl, isClass, found⟩
  · rw [same]
    exact (plain.cons (mem_token rfl)).imp (start_le_declaration starts)
  · rw [isClass]
    refine (found.cons (start_le_variableStart starts (mem_token rfl))).imp ?_
    rw [← mul_assoc]
    exact mul_le_mul_left (le_sup_right.trans le_optional) _

/-- What stands behind metadata and qualifiers is a declaration of its kind. -/
theorem fits_declaration (tokens : List α) :
    (declaration tokens).2.Fits (Shape.declaration (declaration tokens).1) := by
  cases tokens with
  | nil => exact .problem _ _
  | cons first rest =>
    rw [declaration]
    split
    next isService =>
      rw [service_eq]
      split
      next isClass =>
        -- The keyword of a class keeps the run from starting with a variable.
        obtain ⟨second, behind, rfl, classKind⟩ := exists_cons_of_next isClass (by decide)
        have starts : declarationKind? (Kinded.kind second) = some .classDefinition := by
          rw [classKind]
          rfl
        obtain ⟨depth, startEq⟩ := plainRun_start starts behind
        rw [startEq]
        rcases fits_plainRun .classDefinition depth behind with ⟨same, plain⟩ | ⟨other, _⟩
        · simp only [Prod.map_fst, Prod.map_snd, id, same]
          refine ((plain.cons (mem_token classKind)).cons (mem_token isService)).imp ?_
          exact mul_le_mul_left (le_sup_left.trans le_optional) _
        · cases other
      next => exact fits_serviceParts isService rest
    next =>
      split
      next kind starts => exact fits_flat starts rest
      next => exact .problem _ _

/-- Declarations are of no other kinds. -/
theorem isMember_of_mem_declaration {kind : Kind} {parts : List Part}
    (inside : parts ∈ Shape.declaration kind) : kind.isMember ∨ kind = .error := by
  cases kind
  all_goals first | exact .inl rfl | exact .inr rfl | exact absurd inside id

/-- The nodes of declarations hold what stands in front of the declaration and the declaration. -/
theorem ofKind_of_isMember {kind : Kind} (isMember : kind.isMember) :
    ofKind kind = Shape.front * Shape.declaration kind := by
  cases kind <;> first | rfl | cases isMember

/-! ## Members and modules -/

theorem fits_qualified (tokens : List α) :
    (qualified tokens).2.Fits
      (Shape.qualifiers * Shape.declaration (qualified tokens).1) := by
  have marks : (Parsed.tokens (countIn qualifiers tokens) tokens).Fits Shape.qualifiers :=
    fits_countIn _ tokens
  have declared := fits_declaration (tokens.drop (countIn qualifiers tokens))
  have whole : ((Parsed.tokens (countIn qualifiers tokens) tokens).andThen fun _ =>
      (declaration (tokens.drop (countIn qualifiers tokens))).2).Fits _ := marks.andThen declared
  exact whole

/-- A member takes a token. -/
theorem member_some {tokens : List α} (starts : startsMember (next tokens)) :
    ((metadata tokens).andThen fun behind => (qualified behind).2).elements ≠ [] := by
  intro nothing
  cases tokens with
  | nil => cases starts
  | cons first rest =>
    have some := (composed_member (first :: rest)).covers.leavesOf_ne_nil
      (length_rest_member_lt starts)
    rw [member_eq, Parsed.wrap, nothing] at some
    exact some (by simp)

/-- Where no declaration is found, the metadata and the qualifiers form an error. -/
theorem front_le_error {parts : List Part} (inside : parts ∈ Shape.front) (some : parts ≠ []) :
    parts ∈ ofKind .error := by
  have qualifiers : Shape.qualifiers ≤ anyToken∗ := by
    apply kstar_mono
    rintro _ ⟨kind, _, rfl⟩
    exact Shape.mem_anyToken kind
  rw [Shape.front, Shape.optional, add_mul, one_mul] at inside
  rcases inside with marks | behind
  · exact .inl (Shape.mem_mul_kstar (qualifiers marks) some)
  · exact .inr behind

theorem fits_member {tokens : List α} (starts : startsMember (next tokens)) :
    (member tokens).Fits Shape.item := by
  have inside : ((metadata tokens).andThen fun behind => (qualified behind).2).Fits
      (Shape.front * Shape.declaration (qualified (metadata tokens).rest).1) := by
    rw [Shape.front, mul_assoc]
    exact (fits_metadata tokens).andThen (fits_qualified _)
  rw [member_eq]
  generalize (qualified (metadata tokens).rest).1 = kind at inside
  obtain ⟨front, _, behind, isDeclaration, _⟩ := Language.mem_mul.mp inside.parts
  rcases isMember_of_mem_declaration isDeclaration with isMember | rfl
  · refine Parsed.Fits.imp (.wrap ?_) (node_le_nodeWhere (by simp [isMember]))
    rwa [ofKind_of_isMember isMember]
  · refine Parsed.Fits.imp (.wrap ⟨?_, inside.inside⟩) (node_le_nodeWhere rfl)
    have onlyFront := inside.parts
    rw [Shape.declaration, mul_one] at onlyFront
    exact front_le_error onlyFront (mt List.map_eq_nil_iff.mp (member_some starts))

theorem fits_items (tokens : List α) : (items tokens).Fits Shape.item∗ := by
  fun_induction items tokens with
  | case1 => exact (Parsed.Fits.none _).imp one_le_kstar
  | case2 first rest isImport item more ih =>
    have isItem : item.Fits Shape.item :=
      (fits_importDeclaration isImport rest).imp (node_le_nodeWhere rfl)
    exact (isItem.andThen ih).imp mul_kstar_le_kstar
  | case3 first rest _ starts item more ih =>
    have isItem : item.Fits Shape.item := fits_member starts
    exact (isItem.andThen ih).imp mul_kstar_le_kstar
  | case4 first rest _ _ problem ih =>
    refine ((ih.consError first).report _ _).imp ?_
    exact (mul_le_mul_left (node_le_nodeWhere rfl) _).trans mul_kstar_le_kstar

/-- A module in front of the end of the file is in shape. -/
theorem fits_modulePart (tokens : List α) {endOfFile : α}
    (ends : Kinded.kind endOfFile = .endOfFile) :
    (Tree.node .modulePart ((items tokens).elements ++ [.leaf endOfFile])).Fits := by
  have parts := fits_items tokens
  rw [Tree.fits_node_iff, List.map_append, List.forall_mem_append, List.forall_mem_singleton]
  exact ⟨Language.append_mem_mul parts.parts (Shape.mem_token ends), parts.inside, Tree.fits_leaf _⟩

end ServiceAnnotator.Grammar
