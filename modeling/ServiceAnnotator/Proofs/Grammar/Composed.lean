import ServiceAnnotator.Proofs.Grammar.Equations

/-!
# Rules put together

Each rule takes tokens, groups what was read, and reports problems at the token in front of it. What
holds of these few steps holds of everything that is read, so a property of all rules needs one case
per step and not one per rule.
-/

namespace ServiceAnnotator

/-! ## Steps -/

/-- What was read from tokens is put together of what was read from the front on, and problems are
reported at the first token of such a part. -/
inductive Parsed.Composed {α : Type} : Parsed α → List α → Prop where
  | none (tokens : List α) : Composed (.none tokens) tokens
  | tokens (count : Nat) (tokens : List α) : Composed (.tokens count tokens) tokens
  | andThen {parsed : Parsed α} {tokens : List α} {rule : List α → Parsed α}
      (first : Composed parsed tokens) (second : Composed (rule parsed.rest) parsed.rest) :
      Composed (parsed.andThen rule) tokens
  | wrap {parsed : Parsed α} {tokens : List α} (composed : Composed parsed tokens) (kind : Kind) :
      Composed (parsed.wrap kind) tokens
  | cons {parsed : Parsed α} {tokens : List α} (composed : Composed parsed tokens) (item : α) :
      Composed (parsed.cons (.leaf item)) (item :: tokens)
  | consNode {parsed : Parsed α} {tokens : List α} (composed : Composed parsed tokens) (kind : Kind)
      (item : α) : Composed (parsed.cons (.node kind [.leaf item])) (item :: tokens)
  | report {parsed : Parsed α} {tokens : List α} (composed : Composed parsed tokens) (p : Problem) :
      Composed (parsed.report p tokens.length) tokens

namespace Parsed.Composed

variable {α : Type}

theorem problem (p : Problem) (tokens : List α) : (Parsed.problem p tokens).Composed tokens :=
  (none tokens).report p

theorem leaf (item : α) (tokens : List α) :
    (⟨[.leaf item], [], tokens⟩ : Parsed α).Composed (item :: tokens) :=
  (none tokens).cons item

end Parsed.Composed

namespace Grammar

variable {α : Type} [Kinded α]

/-! ## Names, expressions and mappings -/

theorem composed_expect (kind : Kind) (tokens : List α) : (expect kind tokens).Composed tokens := by
  unfold expect
  split
  · exact .problem _ _
  · split
    · exact .leaf _ _
    · exact .problem _ _

theorem composed_recover (problem : Problem) (stop : KindSet) (tokens : List α) :
    (recover problem stop tokens).Composed tokens := by
  rw [recover_eq]
  split
  · exact (Parsed.Composed.none _).report _
  · exact ((Parsed.Composed.tokens _ _).wrap _).report _

theorem composed_nameReference (recovery : KindSet) (tokens : List α) :
    (nameReference recovery tokens).Composed tokens := by
  unfold nameReference
  split
  · exact composed_recover ..
  · split
    · split
      · exact ((Parsed.Composed.tokens _ _).andThen (composed_expect _ _)).wrap _
      · exact (Parsed.Composed.tokens _ _).wrap _
    · exact composed_recover ..

theorem composed_expression (stop : KindSet) (tokens : List α) :
    (expression stop tokens).Composed tokens := by
  simp only [expression]
  split
  · exact .problem _ _
  · exact (Parsed.Composed.tokens _ _).wrap _

theorem composed_listeners (tokens : List α) : (listeners tokens).Composed tokens := by
  fun_induction listeners tokens with
  | case1 => exact .problem _ _
  | case2 => exact (Parsed.Composed.tokens _ _).wrap _
  | case3 tokens length _ first separator rest behind _ ih =>
    have composed : first.Composed tokens := (Parsed.Composed.tokens _ _).wrap _
    refine composed.andThen ?_
    have restEq : first.rest = separator :: rest := behind
    rw [restEq]
    exact ih.cons separator
  | case4 => exact (Parsed.Composed.tokens _ _).wrap _

theorem composed_furtherListeners (tokens : List α) : (furtherListeners tokens).Composed tokens := by
  unfold furtherListeners
  split
  · exact (Parsed.Composed.tokens 1 _).andThen (composed_listeners _)
  · exact .none _

mutual

theorem composed_fields (tokens : List α) : (fields tokens).val.Composed tokens := by
  cases tokens with
  | nil =>
    rw [val_fields_nil]
    exact composed_expect _ _
  | cons first rest =>
    rw [val_fields_cons]
    split
    · exact .leaf _ _
    · split
      · exact ((composed_fields rest).consNode _ _).report _
      · split
        · have shorter := (field first rest).property
          exact (composed_field first rest).andThen (composed_furtherFields _)
        · exact (Parsed.Composed.problem _ _).andThen (composed_expect _ _)
termination_by (tokens.length, 0)

theorem composed_furtherFields (tokens : List α) : (furtherFields tokens).val.Composed tokens := by
  cases tokens with
  | nil =>
    rw [val_furtherFields_nil]
    exact composed_expect _ _
  | cons first rest =>
    rw [val_furtherFields_cons]
    split
    · exact (composed_fields rest).cons first
    · split
      · exact (composed_fields (first :: rest)).report _
      · exact composed_expect _ _
termination_by (tokens.length, 1)

theorem composed_field (first : α) (rest : List α) :
    (field first rest).val.Composed (first :: rest) := by
  rw [val_field]
  split
  · exact ((composed_expression _ _).cons first).wrap _
  · split
    · rename_i colon
      have shorter := length_sub_one_lt colon (by decide)
      refine (Parsed.Composed.cons ?_ first).wrap _
      exact (Parsed.Composed.tokens 1 rest).andThen (composed_fieldValue _)
    · exact ((Parsed.Composed.none rest).cons first).wrap _
termination_by (rest.length, 2)

theorem composed_fieldValue (tokens : List α) : (fieldValue tokens).val.Composed tokens := by
  rw [val_fieldValue]
  split
  · rename_i brace
    have shorter := length_sub_one_lt brace (by decide)
    exact ((Parsed.Composed.tokens 1 tokens).andThen (composed_fields _)).wrap _
  · exact composed_expression _ _
termination_by (tokens.length, 0)

end

theorem composed_mapping (tokens : List α) : (mapping? tokens).Composed tokens := by
  rw [mapping?_eq]
  split
  · exact ((Parsed.Composed.tokens 1 tokens).andThen (composed_fields _)).wrap _
  · exact .none _

/-! ## Metadata -/

theorem composed_attachment (sign : α) (tokens : List α) :
    (attachment sign tokens).Composed (sign :: tokens) :=
  (((composed_nameReference _ _).andThen (composed_mapping _)).cons sign).wrap _

theorem composed_attachments (tokens : List α) : (attachments tokens).Composed tokens := by
  fun_induction attachments tokens with
  | case1 => exact .none _
  | case2 sign rest _ first more ih => exact (composed_attachment sign rest).andThen ih
  | case3 => exact .none _

theorem composed_documentation (tokens : List α) : (documentation tokens).Composed tokens := by
  simp only [documentation]
  split
  · exact .none _
  · exact (Parsed.Composed.tokens _ _).wrap _

theorem composed_metadata (tokens : List α) : (metadata tokens).Composed tokens := by
  simp only [metadata]
  split
  · exact .none _
  · exact ((composed_documentation _).andThen (composed_attachments _)).wrap _

/-! ## Declarations -/

theorem composed_importDeclaration (keyword : α) (tokens : List α) :
    (importDeclaration keyword tokens).Composed (keyword :: tokens) := by
  simp only [importDeclaration]
  refine (Parsed.Composed.cons (Parsed.Composed.andThen ?_ (composed_expect _ _)) keyword).wrap _
  split
  · exact .problem _ _
  · exact .tokens _ _

theorem composed_plainRun (kind : Kind) (depth : Nat) (tokens : List α) :
    (plainRun kind depth tokens).2.Composed tokens := by
  induction tokens generalizing kind depth with
  | nil => exact .problem _ _
  | cons token tokens ih =>
    rw [plainRun_cons]
    split
    · exact .leaf _ _
    · split
      · exact (ih _ _).cons token
      · split
        · exact (ih _ _).cons token
        · split
          · exact ((ih _ _).consNode _ token).report _
          · split
            · exact .leaf _ _
            · exact (ih _ _).cons token
        · exact (ih _ _).cons token

theorem composed_attachPoint (tokens : List α) : (attachPoint tokens).Composed tokens := by
  unfold attachPoint
  split
  · exact (Parsed.Composed.tokens _ _).wrap _
  · split
    · exact .tokens _ _
    · exact .none _

theorem composed_serviceType (tokens : List α) : (serviceType tokens).Composed tokens := by
  unfold serviceType
  split
  · exact composed_nameReference _ _
  · exact .none _

theorem composed_listenerClause (tokens : List α) : (listenerClause tokens).Composed tokens := by
  unfold listenerClause
  split
  · exact (Parsed.Composed.tokens 1 tokens).andThen ((composed_listeners _).wrap _)
  · exact .problem _ _

theorem composed_bodyEnd (tokens : List α) : (bodyEnd tokens).Composed tokens := by
  unfold bodyEnd
  split
  · exact .tokens _ _
  · exact .problem _ _

theorem composed_serviceBody (tokens : List α) : (serviceBody tokens).Composed tokens := by
  simp only [serviceBody]
  split
  · exact ((Parsed.Composed.tokens _ tokens).andThen (composed_bodyEnd _)).wrap _
  · exact .problem _ _

theorem composed_service (keyword : α) (tokens : List α) :
    (service keyword tokens).2.Composed (keyword :: tokens) := by
  unfold service
  split
  · exact (composed_plainRun _ _ _).cons keyword
  · refine Parsed.Composed.cons ?_ keyword
    have header := ((composed_serviceType tokens).andThen (composed_attachPoint _)).andThen
      (composed_listenerClause _)
    exact header.andThen (composed_serviceBody _)

theorem composed_declaration (tokens : List α) : (declaration tokens).2.Composed tokens := by
  unfold declaration
  split
  · exact .problem _ _
  · split
    · exact composed_service _ _
    · split
      · exact composed_plainRun _ _ _
      · exact .problem _ _

theorem composed_member (tokens : List α) : (member tokens).Composed tokens := by
  simp only [member]
  exact (((composed_metadata _).andThen (.tokens _ _)).andThen (composed_declaration _)).wrap _

theorem composed_items (tokens : List α) : (items tokens).Composed tokens := by
  fun_induction items tokens with
  | case1 => exact .none _
  | case2 first rest _ item more ih => exact (composed_importDeclaration first rest).andThen ih
  | case3 first rest _ _ item more ih => exact (composed_member (first :: rest)).andThen ih
  | case4 first rest _ _ problem ih => exact (ih.consNode _ first).report _

end Grammar

end ServiceAnnotator
