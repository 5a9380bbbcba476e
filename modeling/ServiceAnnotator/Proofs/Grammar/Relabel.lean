import ServiceAnnotator.Proofs.Grammar.Frame.Member
import ServiceAnnotator.Proofs.Tree.Mapping

/-!
# The grammar looks at kinds only

If the tokens of a document are exchanged for others of the same kinds, then the grammar reads the
same tree with the other tokens at its leaves, and it reports the same problems with as many tokens
ahead. The exchange is a function on tokens that keeps their kinds, and each rule commutes with it.
-/

namespace ServiceAnnotator

/-! ## Results with other tokens -/

namespace Parsed

variable {α β : Type} {f : α → β}

/-- What was read, with other tokens in the place of those that were read and of those behind. -/
def relabel (f : α → β) (parsed : Parsed α) : Parsed β :=
  ⟨Tree.mapAll f parsed.elements, parsed.reports, parsed.rest.map f⟩

theorem relabel_none (tokens : List α) : none (tokens.map f) = (none tokens).relabel f := by
  simp [relabel, none]

theorem relabel_problem (p : Problem) (tokens : List α) :
    problem p (tokens.map f) = (problem p tokens).relabel f := by
  simp [relabel, problem]

theorem relabel_tokens (count : Nat) (items : List α) :
    tokens count (items.map f) = (tokens count items).relabel f := by
  simp only [relabel, tokens, Tree.mapAll_map_leaf]
  rw [List.map_take (f := f), List.map_drop]

variable {parsed : Parsed α} {parsed' : Parsed β}

theorem relabel_wrap (same : parsed' = parsed.relabel f) (kind : Kind) :
    parsed'.wrap kind = (parsed.wrap kind).relabel f := by
  simp [same, relabel, wrap]

theorem relabel_cons (same : parsed' = parsed.relabel f) (item : α) :
    parsed'.cons (.leaf (f item)) = (parsed.cons (.leaf item)).relabel f := by
  simp [same, relabel, cons]

theorem relabel_consNode (same : parsed' = parsed.relabel f) (kind : Kind) (item : α) :
    parsed'.cons (.node kind [.leaf (f item)]) =
      (parsed.cons (.node kind [.leaf item])).relabel f := by
  simp [same, relabel, cons]

theorem relabel_report (same : parsed' = parsed.relabel f) (p : Problem) {ahead ahead' : Nat}
    (sameAhead : ahead' = ahead) :
    parsed'.report p ahead' = (parsed.report p ahead).relabel f := by
  rw [same, sameAhead]
  rfl

/-- Two rules one behind the other commute with the exchange if both do. -/
theorem relabel_andThen {rule : List α → Parsed α} {rule' : List β → Parsed β}
    (first : parsed' = parsed.relabel f)
    (second : rule' (parsed.rest.map f) = (rule parsed.rest).relabel f) :
    parsed'.andThen rule' = (parsed.andThen rule).relabel f := by
  simp [first, relabel, andThen, second]

end Parsed

namespace Grammar

open Parsed (relabel_none relabel_problem relabel_tokens relabel_wrap relabel_cons relabel_report
  relabel_andThen)

variable {α β : Type} [Kinded α] [Kinded β] {f : α → β}
  (same : ∀ item, Kinded.kind (f item) = Kinded.kind item)

include same

/-! ## Single tokens and runs -/

theorem next_map (tokens : List α) : next (tokens.map f) = next tokens := by
  cases tokens with
  | nil => rfl
  | cons first rest => exact same first

theorem length_takeWhile_map (p : Kind → Bool) (tokens : List α) :
    ((tokens.map f).takeWhile fun token => p (Kinded.kind token)).length =
      (tokens.takeWhile fun token => p (Kinded.kind token)).length := by
  rw [List.takeWhile_map, List.length_map]
  simp only [Function.comp_def, same]

theorem countIn_map (set : KindSet) (tokens : List α) :
    countIn set (tokens.map f) = countIn set tokens :=
  length_takeWhile_map same set.contains tokens

theorem runLength_map (stop : KindSet) (depth : Nat) (tokens : List α) :
    runLength stop depth (tokens.map f) = runLength stop depth tokens := by
  induction tokens generalizing depth with
  | nil => rfl
  | cons token tokens ih => simp only [List.map_cons, runLength_cons, same, ih]

theorem expect_map (kind : Kind) (tokens : List α) :
    expect kind (tokens.map f) = (expect kind tokens).relabel f := by
  cases tokens with
  | nil => exact relabel_problem _ []
  | cons first rest =>
    rw [List.map_cons, expect, expect, same]
    split
    · exact relabel_cons (relabel_none rest) first
    · exact relabel_problem _ (first :: rest)

theorem recover_map (problem : Problem) (stop : KindSet) (tokens : List α) :
    recover problem stop (tokens.map f) = (recover problem stop tokens).relabel f := by
  have count := length_takeWhile_map same (fun kind => !stop.contains kind) tokens
  simp only [recover, count, Parsed.relabel, List.length_map]
  split
  · simp
  · simp only [← List.map_take, Tree.mapAll_cons, Tree.map_node, Tree.mapAll_map_leaf,
      Tree.mapAll_nil, List.map_drop]

theorem nameReference_map (recovery : KindSet) (tokens : List α) :
    nameReference recovery (tokens.map f) = (nameReference recovery tokens).relabel f := by
  cases tokens with
  | nil => exact recover_map same _ _ []
  | cons first rest =>
    rw [List.map_cons, nameReference, nameReference, same, next_map same]
    split
    · split
      · exact relabel_wrap (relabel_andThen (relabel_tokens 2 (first :: rest))
          (expect_map same _ _)) _
      · exact relabel_wrap (relabel_tokens 1 (first :: rest)) _
    · exact recover_map same _ _ (first :: rest)

/-! ## Expressions and mapping constructors -/

theorem expression_map (stop : KindSet) (tokens : List α) :
    expression stop (tokens.map f) = (expression stop tokens).relabel f := by
  simp only [expression, runLength_map same]
  split
  · exact relabel_problem _ _
  · exact relabel_wrap (relabel_tokens _ _) _

theorem listeners_map (tokens : List α) :
    listeners (tokens.map f) = (listeners tokens).relabel f := by
  rw [listeners_eq, listeners_eq, runLength_map same]
  split
  · exact relabel_problem _ _
  · refine relabel_andThen (relabel_wrap (relabel_tokens _ _) _) ?_
    rw [furtherListeners, furtherListeners, next_map same]
    split
    · rename_i isComma
      have shorter := length_sub_one_lt isComma (by decide)
      exact relabel_andThen (relabel_tokens _ _) (listeners_map _)
    · exact relabel_none _
termination_by tokens.length
decreasing_by
  simp only [Parsed.rest_wrap, Parsed.rest_tokens, List.length_drop] at shorter ⊢
  omega

mutual

theorem fields_map (tokens : List α) :
    (fields (tokens.map f)).val = (fields tokens).val.relabel f := by
  cases tokens with
  | nil =>
    rw [List.map_nil, val_fields_nil, val_fields_nil]
    exact expect_map same _ []
  | cons first rest =>
    rw [List.map_cons, val_fields_cons, val_fields_cons, same]
    split
    · exact relabel_cons (relabel_none rest) first
    · split
      · exact relabel_report (Parsed.relabel_consNode (fields_map rest) _ first) _ (by simp)
      · split
        · have shorter := (field first rest).property
          exact relabel_andThen (field_map first rest) (furtherFields_map _)
        · exact relabel_andThen (relabel_problem _ (first :: rest)) (expect_map same _ _)
termination_by (tokens.length, 0)

theorem furtherFields_map (tokens : List α) :
    (furtherFields (tokens.map f)).val = (furtherFields tokens).val.relabel f := by
  cases tokens with
  | nil =>
    rw [List.map_nil, val_furtherFields_nil, val_furtherFields_nil]
    exact expect_map same _ []
  | cons first rest =>
    rw [List.map_cons, val_furtherFields_cons, val_furtherFields_cons, same]
    split
    · exact relabel_cons (fields_map rest) first
    · split
      · exact relabel_report (fields_map (first :: rest)) _ (by simp)
      · exact expect_map same _ (first :: rest)
termination_by (tokens.length, 1)

theorem field_map (first : α) (rest : List α) :
    (field (f first) (rest.map f)).val = (field first rest).val.relabel f := by
  rw [val_field, val_field, same, next_map same]
  split
  · exact relabel_wrap (relabel_cons (expression_map same _ _) first) _
  · split
    · rename_i isColon
      have shorter := length_sub_one_lt isColon (by decide)
      exact relabel_wrap (relabel_cons
        (relabel_andThen (relabel_tokens _ _) (fieldValue_map _)) first) _
    · exact relabel_wrap (relabel_cons (relabel_none rest) first) _
termination_by (rest.length, 2)

theorem fieldValue_map (tokens : List α) :
    (fieldValue (tokens.map f)).val = (fieldValue tokens).val.relabel f := by
  rw [val_fieldValue, val_fieldValue, next_map same]
  split
  · rename_i isBrace
    have shorter := length_sub_one_lt isBrace (by decide)
    exact relabel_wrap (relabel_andThen (relabel_tokens _ _) (fields_map _)) _
  · exact expression_map same _ _
termination_by (tokens.length, 0)

end

theorem mapping?_map (tokens : List α) :
    mapping? (tokens.map f) = (mapping? tokens).relabel f := by
  rw [mapping?_eq, mapping?_eq, next_map same]
  split
  · exact relabel_wrap (relabel_andThen (relabel_tokens _ _) (fields_map same _)) _
  · exact relabel_none _

/-! ## Metadata -/

theorem attachment_map (sign : α) (tokens : List α) :
    attachment (f sign) (tokens.map f) = (attachment sign tokens).relabel f :=
  relabel_wrap (relabel_cons
    (relabel_andThen (nameReference_map same _ tokens) (mapping?_map same _)) sign) _

theorem attachments_map (tokens : List α) :
    attachments (tokens.map f) = (attachments tokens).relabel f := by
  cases tokens with
  | nil =>
    rw [List.map_nil, attachments, attachments]
    exact relabel_none []
  | cons sign rest =>
    rw [List.map_cons, attachments_cons, attachments_cons, same]
    split
    · have shorter := length_rest_attachment_le sign rest
      exact relabel_andThen (attachment_map same sign rest) (attachments_map _)
    · exact relabel_none (sign :: rest)
termination_by tokens.length

theorem documentation_map (tokens : List α) :
    documentation (tokens.map f) = (documentation tokens).relabel f := by
  simp only [documentation, countIn_map same]
  split
  · exact relabel_none _
  · exact relabel_wrap (relabel_tokens _ _) _

theorem metadata_map (tokens : List α) : metadata (tokens.map f) = (metadata tokens).relabel f := by
  have parts : (documentation (tokens.map f)).andThen attachments =
      ((documentation tokens).andThen attachments).relabel f :=
    relabel_andThen (documentation_map same tokens) (attachments_map same _)
  simp only [metadata, parts]
  have sameEmpty : (((documentation tokens).andThen attachments).relabel f).elements.isEmpty =
      ((documentation tokens).andThen attachments).elements.isEmpty := Tree.isEmpty_mapAll f _
  rw [sameEmpty]
  split
  · exact relabel_none _
  · exact relabel_wrap rfl _

/-! ## Declarations -/

theorem importDeclaration_map (keyword : α) (tokens : List α) :
    importDeclaration (f keyword) (tokens.map f) =
      (importDeclaration keyword tokens).relabel f := by
  refine relabel_wrap (relabel_cons (relabel_andThen ?_ (expect_map same _ _)) keyword) _
  rw [runLength_map same]
  split
  · exact relabel_problem _ _
  · exact relabel_tokens _ _

/-- What was read as a declaration, with other tokens; the kind of the declaration stays. -/
def relabelSecond (f : α → β) (read : Kind × Parsed α) : Kind × Parsed β :=
  read.map id (Parsed.relabel f)

theorem plainRun_map (kind : Kind) (depth : Nat) (tokens : List α) :
    plainRun kind depth (tokens.map f) = relabelSecond f (plainRun kind depth tokens) := by
  induction tokens generalizing kind depth with
  | nil => rfl
  | cons token tokens ih =>
    have goesOn (kind : Kind) (depth : Nat) :
        (plainRun kind depth (tokens.map f)).map id (Parsed.cons (.leaf (f token))) =
          relabelSecond f ((plainRun kind depth tokens).map id (Parsed.cons (.leaf token))) := by
      rw [ih]
      exact Prod.ext rfl (relabel_cons rfl token)
    have stops : ((kind, ⟨[.leaf (f token)], [], tokens.map f⟩) : Kind × Parsed β) =
        relabelSecond f (kind, ⟨[.leaf token], [], tokens⟩) :=
      Prod.ext rfl (relabel_cons (relabel_none tokens) token)
    rw [List.map_cons, plainRun_cons, plainRun_cons, same, next_map same]
    split
    · exact stops
    · split
      · exact goesOn _ _
      · cases bracket (Kinded.kind token) with
        | opens => exact goesOn _ _
        | closes =>
          dsimp only
          split
          · rw [ih]
            exact Prod.ext rfl (relabel_report (Parsed.relabel_consNode rfl _ token) _ (by simp))
          · split
            · exact stops
            · exact goesOn _ _
        | neither => exact goesOn _ _

theorem pathLength_map (tokens : List α) : pathLength (tokens.map f) = pathLength tokens := by
  cases tokens with
  | nil => rfl
  | cons slash rest =>
    rw [List.map_cons, pathLength_cons, pathLength_cons, same, next_map same, ← List.map_drop,
      pathLength_map (rest.drop 1), pathLength_map rest]
termination_by tokens.length

theorem attachPoint_map (tokens : List α) :
    attachPoint (tokens.map f) = (attachPoint tokens).relabel f := by
  rw [attachPoint, attachPoint, next_map same, pathLength_map same]
  split
  · exact relabel_wrap (relabel_tokens _ _) _
  · split
    · exact relabel_tokens _ _
    · exact relabel_none _

theorem serviceType_map (tokens : List α) :
    serviceType (tokens.map f) = (serviceType tokens).relabel f := by
  rw [serviceType, serviceType, next_map same]
  split
  · exact nameReference_map same _ _
  · exact relabel_none _

theorem listenerClause_map (tokens : List α) :
    listenerClause (tokens.map f) = (listenerClause tokens).relabel f := by
  rw [listenerClause, listenerClause, next_map same]
  split
  · exact relabel_andThen (relabel_tokens _ _) (relabel_wrap (listeners_map same _) _)
  · exact relabel_problem _ _

theorem bodyEnd_map (tokens : List α) : bodyEnd (tokens.map f) = (bodyEnd tokens).relabel f := by
  rw [bodyEnd, bodyEnd, next_map same]
  split
  · exact relabel_tokens _ _
  · exact relabel_problem _ _

theorem serviceBody_map (tokens : List α) :
    serviceBody (tokens.map f) = (serviceBody tokens).relabel f := by
  simp only [serviceBody, next_map same, ← List.map_drop, runLength_map same]
  split
  · exact relabel_wrap (relabel_andThen (relabel_tokens _ _) (bodyEnd_map same _)) _
  · exact relabel_problem _ _

theorem service_map (keyword : α) (tokens : List α) :
    service (f keyword) (tokens.map f) = relabelSecond f (service keyword tokens) := by
  rw [service, service, next_map same]
  split
  · rw [plainRun_map same]
    exact Prod.ext rfl (relabel_cons rfl keyword)
  · have header := relabel_andThen (relabel_andThen (serviceType_map same tokens)
      (attachPoint_map same _)) (listenerClause_map same _)
    exact Prod.ext rfl (relabel_cons (relabel_andThen header (serviceBody_map same _)) keyword)

theorem declaration_map (tokens : List α) :
    declaration (tokens.map f) = relabelSecond f (declaration tokens) := by
  cases tokens with
  | nil => rfl
  | cons first rest =>
    rw [List.map_cons, declaration, declaration, same]
    split
    · exact service_map same first rest
    · split
      · exact plainRun_map same _ _ (first :: rest)
      · exact Prod.ext rfl (relabel_problem _ (first :: rest))

theorem qualified_map (tokens : List α) :
    qualified (tokens.map f) = relabelSecond f (qualified tokens) := by
  have counted := countIn_map same qualifiers tokens
  have decided := declaration_map same (tokens.drop (countIn qualifiers tokens))
  simp only [qualified, counted, ← List.map_drop, decided]
  have whole (behind : Parsed α) :
      (Parsed.tokens (countIn qualifiers tokens) (tokens.map f)).andThen
          (fun _ => behind.relabel f) =
        ((Parsed.tokens (countIn qualifiers tokens) tokens).andThen fun _ => behind).relabel f :=
    relabel_andThen (relabel_tokens _ _) rfl
  exact Prod.ext rfl (whole _)

theorem member_map (tokens : List α) : member (tokens.map f) = (member tokens).relabel f := by
  have decided := qualified_map same (metadata tokens).rest
  have sameRest : (metadata (tokens.map f)).rest = (metadata tokens).rest.map f := by
    rw [metadata_map same]
    rfl
  have sameKind : (qualified (metadata (tokens.map f)).rest).1 =
      (qualified (metadata tokens).rest).1 := by
    rw [sameRest, decided]
    rfl
  rw [member_eq, member_eq, sameKind]
  exact relabel_wrap (relabel_andThen (metadata_map same tokens) (congrArg Prod.snd decided)) _

/-- The grammar reads the same of tokens of the same kinds. -/
theorem items_map (tokens : List α) : items (tokens.map f) = (items tokens).relabel f := by
  cases tokens with
  | nil =>
    rw [List.map_nil, items, items]
    exact relabel_none []
  | cons first rest =>
    rw [List.map_cons, items_cons, items_cons, same]
    split
    · have shorter : (importDeclaration first rest).rest.length < (first :: rest).length :=
        Nat.lt_succ_of_le (length_rest_importDeclaration_le first rest)
      exact relabel_andThen (importDeclaration_map same first rest) (items_map _)
    · split
      · rename_i starts
        have shorter : (member (first :: rest)).rest.length < (first :: rest).length :=
          length_rest_member_lt starts
        exact relabel_andThen (member_map same (first :: rest)) (items_map _)
      · exact relabel_report (Parsed.relabel_consNode (items_map rest) _ first) _ (by simp)
termination_by tokens.length
decreasing_by
  · exact Nat.lt_succ_self _
  · exact shorter
  · exact shorter

end Grammar

end ServiceAnnotator
