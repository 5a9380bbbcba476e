import ServiceAnnotator.Proofs.Grammar.Frame.Declaration
import ServiceAnnotator.Proofs.Grammar.Lossless
import ServiceAnnotator.Proofs.Tree.Shape

/-!
# The grammar keeps nodes in shape

Each rule reads elements of a certain language, whatever tokens it finds, and each node that it
makes holds what nodes of its kind hold.
-/

open scoped Computability

namespace ServiceAnnotator

/-! ## Rules in general -/

namespace Parsed

variable {α : Type} [Kinded α]

/-- What was read is of a language of children, and all nodes are in shape. -/
structure Fits (shape : Language Part) (parsed : Parsed α) : Prop where
  parts : parsed.elements.map Tree.part ∈ shape
  inside : ∀ element ∈ parsed.elements, element.Fits

namespace Fits

variable {shape left right : Language Part} {parsed : Parsed α}

theorem imp (fits : parsed.Fits left) (more : left ≤ right) : parsed.Fits right :=
  ⟨more fits.parts, fits.inside⟩

theorem none (tokens : List α) : (Parsed.none tokens).Fits 1 :=
  ⟨rfl, fun _ inside => nomatch inside⟩

theorem problem (problem : Problem) (tokens : List α) : (Parsed.problem problem tokens).Fits 1 :=
  ⟨rfl, fun _ inside => nomatch inside⟩

theorem leaf {item : α} (inside : [.token (Kinded.kind item)] ∈ shape) (rest : List α) :
    (⟨[.leaf item], [], rest⟩ : Parsed α).Fits shape :=
  ⟨inside, List.forall_mem_singleton.mpr (Tree.fits_leaf item)⟩

theorem tokens {count : Nat} {tokens : List α}
    (inside : (tokens.take count).map (fun token => Part.token (Kinded.kind token)) ∈ shape) :
    (Parsed.tokens count tokens).Fits shape := by
  constructor
  · rw [Parsed.tokens, List.map_map]
    exact inside
  · intro element found
    obtain ⟨item, _, rfl⟩ := List.mem_map.mp found
    exact Tree.fits_leaf item

/-- Tokens of a sort, as many as there are. -/
theorem tokensOf {count : Nat} {tokens : List α}
    (each : ∀ token ∈ tokens.take count, [Part.token (Kinded.kind token)] ∈ shape) :
    (Parsed.tokens count tokens).Fits shape∗ := by
  apply Fits.tokens
  apply Shape.mem_kstar_of_forall
  intro part inside
  obtain ⟨token, found, rfl⟩ := List.mem_map.mp inside
  exact each token found

theorem andThen {rule : List α → Parsed α} (first : parsed.Fits left)
    (second : (rule parsed.rest).Fits right) : (parsed.andThen rule).Fits (left * right) := by
  constructor
  · rw [Parsed.andThen, List.map_append]
    exact Language.append_mem_mul first.parts second.parts
  · rw [Parsed.andThen, List.forall_mem_append]
    exact ⟨first.inside, second.inside⟩

theorem wrap {kind : Kind} (fits : parsed.Fits (Shape.ofKind kind)) :
    (parsed.wrap kind).Fits (Shape.node kind) := by
  constructor
  · rfl
  · rw [Parsed.wrap, List.forall_mem_singleton, Tree.fits_node_iff]
    exact ⟨fits.parts, fits.inside⟩

/-- A repetition of which something was read. -/
theorem some (fits : parsed.Fits shape∗) (some : parsed.elements ≠ []) :
    parsed.Fits (shape * shape∗) :=
  ⟨Shape.mem_mul_kstar fits.parts (mt List.map_eq_nil_iff.mp some), fits.inside⟩

theorem cons (fits : parsed.Fits right) {item : α}
    (inside : [.token (Kinded.kind item)] ∈ left) :
    (parsed.cons (.leaf item)).Fits (left * right) := by
  constructor
  · rw [Parsed.cons, List.map_cons, Tree.part]
    exact Language.append_mem_mul inside fits.parts
  · rw [Parsed.cons, List.forall_mem_cons]
    exact ⟨Tree.fits_leaf item, fits.inside⟩

theorem consError (fits : parsed.Fits right) (item : α) :
    (parsed.cons (.node .error [.leaf item])).Fits (Shape.node .error * right) := by
  have alone : (Tree.node .error [.leaf item]).Fits := by
    rw [Tree.fits_node_iff, List.forall_mem_singleton]
    refine ⟨?_, Tree.fits_leaf item⟩
    exact .inl (Shape.le_mul_kstar (Shape.mem_anyToken _))
  constructor
  · exact Language.append_mem_mul (Shape.mem_node .error) fits.parts
  · rw [Parsed.cons, List.forall_mem_cons]
    exact ⟨alone, fits.inside⟩

theorem report (fits : parsed.Fits shape) (problem : Problem) (ahead : Nat) :
    (parsed.report problem ahead).Fits shape := ⟨fits.parts, fits.inside⟩

/-- A problem adds nothing to what is read behind it. -/
theorem behindProblem {p : Problem} {tokens : List α} {rule : List α → Parsed α}
    (fits : (rule tokens).Fits shape) : ((Parsed.problem p tokens).andThen rule).Fits shape := by
  have both : ((Parsed.problem p tokens).andThen rule).Fits (1 * shape) :=
    (problem p tokens).andThen fits
  rwa [one_mul] at both

end Fits

/-- Some tokens, and then some more. -/
theorem tokens_add {α : Type} (count more : Nat) (items : List α) :
    tokens (count + more) items = (tokens count items).andThen (tokens more) := by
  rw [andThen, tokens, tokens, tokens, List.take_add, List.map_append, List.drop_drop]
  rfl

end Parsed

namespace Grammar

open Parsed (tokens_add)
open Shape (token node nodeWhere optional anyToken oneOf ofKind mem_token le_optional one_le_optional
  le_mul_optional le_kstar_mul mul_kstar_mul_le node_le_nodeWhere)

variable {α : Type} [Kinded α]

/-! ## Names and runs -/

theorem fits_anyTokens (count : Nat) (tokens : List α) :
    (Parsed.tokens count tokens).Fits anyToken∗ :=
  .tokensOf fun _ _ => Shape.mem_anyToken _

/-- The next token, where it is of a kind. -/
theorem fits_next {tokens : List α} {kind : Kind} (found : next tokens = kind)
    (some : kind ≠ .endOfFile) {shape : Language Part} (inside : [.token kind] ∈ shape) :
    (Parsed.tokens 1 tokens).Fits shape := by
  obtain ⟨first, rest, rfl, rfl⟩ := exists_cons_of_next found some
  exact .leaf inside rest

/-- At least one token. -/
theorem fits_someTokens {count : Nat} {tokens : List α} (some : count ≠ 0)
    (inside : count ≤ tokens.length) : (Parsed.tokens count tokens).Fits (anyToken * anyToken∗) := by
  obtain ⟨more, rfl⟩ := Nat.exists_eq_add_of_le' (Nat.one_le_iff_ne_zero.mpr some)
  rw [Nat.add_comm, tokens_add]
  refine Parsed.Fits.andThen ?_ (fits_anyTokens more _)
  cases tokens with
  | nil => simp at inside
  | cons first rest => exact .leaf (Shape.mem_anyToken _) rest

theorem fits_expect (kind : Kind) (tokens : List α) :
    (expect kind tokens).Fits (optional (token kind)) := by
  unfold expect
  split
  · exact (Parsed.Fits.problem _ _).imp one_le_optional
  · split
    next isKind => exact (Parsed.Fits.leaf (mem_token isKind) _).imp le_optional
    next => exact (Parsed.Fits.problem _ _).imp one_le_optional

theorem fits_recover (problem : Problem) (stop : KindSet) (tokens : List α) :
    (recover problem stop tokens).Fits (optional (node .error)) := by
  rw [recover_eq]
  apply Parsed.Fits.report
  split
  · exact (Parsed.Fits.none _).imp one_le_optional
  next some =>
    have skipped : (Parsed.tokens (tokens.takeWhile fun token =>
        !stop.contains (Kinded.kind token)).length tokens).Fits (ofKind .error) :=
      (fits_someTokens some (List.takeWhile_sublist _).length_le).imp le_sup_left
    exact skipped.wrap.imp le_optional

/-- A name is read as a reference. -/
theorem fits_namedReference {tokens : List α} (named : next tokens = .identifier) :
    (namedReference tokens).Fits (nodeWhere Kind.isReference) := by
  have first : (Parsed.tokens 1 tokens).Fits (token .identifier) :=
    fits_next named (by decide) (mem_token rfl)
  unfold namedReference
  split
  next colon =>
    have both : (Parsed.tokens 2 tokens).Fits (token .identifier * token .colon) := by
      rw [tokens_add 1 1]
      exact first.andThen (fits_next colon (by decide) (mem_token rfl))
    have qualified : ((Parsed.tokens 2 tokens).andThen (expect .identifier)).Fits
        (ofKind .qualifiedNameReference) := both.andThen (fits_expect _ _)
    exact qualified.wrap.imp (node_le_nodeWhere rfl)
  next =>
    have simple : (Parsed.tokens 1 tokens).Fits (ofKind .simpleNameReference) := first
    exact simple.wrap.imp (node_le_nodeWhere rfl)

theorem fits_nameReference (recovery : KindSet) (tokens : List α) :
    (nameReference recovery tokens).Fits (optional (nodeWhere Kind.isReference + node .error)) := by
  rw [nameReference_eq]
  split
  next named => exact (fits_namedReference named).imp (le_sup_left.trans le_optional)
  next => exact (fits_recover _ _ _).imp (sup_le_sup_left le_sup_right 1)

/-! ## Expressions and mappings -/

theorem fits_run {stop : KindSet} {tokens : List α} (some : runLength stop 0 tokens ≠ 0) :
    ((Parsed.tokens (runLength stop 0 tokens) tokens).wrap .expression).Fits (node .expression) :=
  have inside : (Parsed.tokens (runLength stop 0 tokens) tokens).Fits (ofKind .expression) :=
    fits_someTokens some (runLength_le _ _ _)
  inside.wrap

theorem fits_expression (stop : KindSet) (tokens : List α) :
    (expression stop tokens).Fits (optional (node .expression)) := by
  rw [expression]
  split
  · exact (Parsed.Fits.problem _ _).imp one_le_optional
  next some => exact (fits_run some).imp le_optional

theorem fits_listeners (tokens : List α) : (listeners tokens).Fits (ofKind .expressionList) := by
  have last : node .expression ≤ ofKind .expressionList := le_optional.trans le_kstar_mul
  fun_induction listeners tokens with
  | case1 => exact (Parsed.Fits.problem _ _).imp (one_le_optional.trans le_kstar_mul)
  | case2 tokens length some first => exact (fits_run some).imp last
  | case3 tokens length some first separator rest behind comma ih =>
    have separated : ((listeners rest).cons (.leaf separator)).Fits
        (token .comma * ofKind .expressionList) := ih.cons (mem_token comma)
    refine ((fits_run some).andThen separated).imp ?_
    rw [← mul_assoc]
    exact mul_kstar_mul_le
  | case4 tokens length some first => exact (fits_run some).imp last

/-- The brace at the end of the fields. -/
theorem fits_closingBrace (tokens : List α) :
    (expect .rightBrace tokens).Fits (Shape.fieldOrComma∗ * optional (token .rightBrace)) :=
  (fits_expect _ _).imp le_kstar_mul

mutual

theorem fits_fields (tokens : List α) :
    (fields tokens).val.Fits (Shape.fieldOrComma∗ * optional (token .rightBrace)) := by
  cases tokens with
  | nil =>
    rw [val_fields_nil]
    exact fits_closingBrace []
  | cons first rest =>
    rw [val_fields_cons]
    split
    next brace =>
      exact (Parsed.Fits.leaf (mem_token brace) rest).imp (le_optional.trans le_kstar_mul)
    next =>
      split
      next =>
        refine ((fits_fields rest).consError first).report _ _ |>.imp ?_
        exact (mul_le_mul_left le_sup_right _).trans mul_kstar_mul_le
      next =>
        split
        next starts =>
          have shorter := (field first rest).property
          refine ((fits_field starts rest).imp ?_).andThen (fits_furtherFields _) |>.imp
            mul_kstar_mul_le
          exact le_sup_left.trans le_sup_left
        next => exact (fits_closingBrace _).behindProblem
termination_by (tokens.length, 0)

theorem fits_furtherFields (tokens : List α) :
    (furtherFields tokens).val.Fits (Shape.fieldOrComma∗ * optional (token .rightBrace)) := by
  rw [val_furtherFields]
  split
  next comma =>
    have shorter := length_sub_one_lt comma (by decide)
    refine (fits_next comma (by decide) ?_).andThen (fits_fields _) |>.imp mul_kstar_mul_le
    exact .inl (.inr rfl)
  next =>
    split
    next => exact (fits_fields tokens).behindProblem
    next => exact fits_closingBrace tokens
termination_by (tokens.length, 1)

theorem fits_field {first : α} (starts : fieldStart.contains (Kinded.kind first))
    (rest : List α) : (field first rest).val.Fits (nodeWhere Kind.isField) := by
  rw [val_field]
  split
  next spread =>
    refine Parsed.Fits.imp (.wrap ?_) (node_le_nodeWhere rfl)
    exact (fits_expression _ _).cons (mem_token spread)
  next noSpread =>
    have key : [.token (Kinded.kind first)] ∈ oneOf [.identifier, .stringLiteral] := by
      refine ⟨Kinded.kind first, ?_, rfl⟩
      simpa [fieldStart, KindSet.ofList, noSpread] using starts
    split
    next colon =>
      have shorter := length_sub_one_lt colon (by decide)
      have value : ((Parsed.tokens 1 rest).andThen fun behind => (fieldValue behind).val).Fits
          (token .colon * optional (node .mappingConstructor + node .expression)) :=
        (fits_next colon (by decide) (mem_token rfl)).andThen (fits_fieldValue _)
      refine Parsed.Fits.imp (.wrap ?_) (node_le_nodeWhere rfl)
      exact (value.imp le_optional).cons key
    next =>
      refine Parsed.Fits.imp (.wrap ?_) (node_le_nodeWhere rfl)
      exact ((Parsed.Fits.none rest).imp one_le_optional).cons key
termination_by (rest.length, 2)

theorem fits_fieldValue (tokens : List α) :
    (fieldValue tokens).val.Fits (optional (node .mappingConstructor + node .expression)) := by
  rw [val_fieldValue]
  split
  next brace =>
    have shorter := length_sub_one_lt brace (by decide)
    have inside : ((Parsed.tokens 1 tokens).andThen fun behind => (fields behind).val).Fits
        (ofKind .mappingConstructor) := by
      rw [ofKind, mul_assoc]
      exact (fits_next brace (by decide) (mem_token rfl)).andThen (fits_fields _)
    exact inside.wrap.imp (le_sup_left.trans le_optional)
  next => exact (fits_expression _ _).imp (sup_le_sup_left le_sup_right 1)
termination_by (tokens.length, 0)

end

theorem fits_mapping (tokens : List α) :
    (mapping? tokens).Fits (optional (node .mappingConstructor)) := by
  rw [mapping?_eq]
  split
  next brace =>
    refine Parsed.Fits.imp (.wrap ?_) le_optional
    rw [ofKind, mul_assoc]
    exact (fits_next brace (by decide) (mem_token rfl)).andThen (fits_fields _)
  next => exact (Parsed.Fits.none _).imp one_le_optional

/-! ## Metadata -/

theorem fits_attachment {sign : α} (isSign : Kinded.kind sign = .atSign) (tokens : List α) :
    (attachment sign tokens).Fits (node .annotationAttachment) := by
  apply Parsed.Fits.wrap
  rw [ofKind, mul_assoc]
  exact ((fits_nameReference _ _).andThen (fits_mapping _)).cons (mem_token isSign)

theorem fits_attachments (tokens : List α) :
    (attachments tokens).Fits (node .annotationAttachment)∗ := by
  fun_induction attachments tokens with
  | case1 => exact (Parsed.Fits.none _).imp one_le_kstar
  | case2 sign rest isSign first more ih =>
    exact ((fits_attachment isSign rest).andThen ih).imp mul_kstar_le_kstar
  | case3 => exact (Parsed.Fits.none _).imp one_le_kstar

/-- All tokens that are counted are of one of the kinds. -/
theorem fits_countIn (kinds : List Kind) (tokens : List α) :
    (Parsed.tokens (countIn (.ofList kinds) tokens) tokens).Fits (oneOf kinds)∗ := by
  apply Parsed.Fits.tokensOf
  intro token inside
  have taken : tokens.take (countIn (.ofList kinds) tokens) =
      tokens.takeWhile fun token => (KindSet.ofList kinds).contains (Kinded.kind token) :=
    (List.prefix_iff_eq_take.mp (List.takeWhile_prefix _)).symm
  rw [taken] at inside
  have isCounted := List.all_eq_true.mp List.all_takeWhile token inside
  exact ⟨Kinded.kind token, by simpa [KindSet.ofList] using isCounted, rfl⟩

theorem fits_documentation (tokens : List α) :
    (documentation tokens).Fits (optional (node .documentation)) := by
  rw [documentation]
  split
  · exact (Parsed.Fits.none _).imp one_le_optional
  next some =>
    refine Parsed.Fits.imp (.wrap ?_) le_optional
    have lines := fits_countIn [.documentationLine] tokens
    rw [Shape.oneOf_singleton] at lines
    refine lines.some ?_
    intro nothing
    have inside : countIn (.ofList [.documentationLine]) tokens ≤ tokens.length :=
      (List.takeWhile_sublist _).length_le
    have lengthEq := congrArg List.length nothing
    rw [Parsed.tokens, List.length_map, List.length_take, Nat.min_eq_left inside] at lengthEq
    exact some lengthEq

theorem fits_metadata (tokens : List α) :
    (metadata tokens).Fits (optional (node .metadata)) := by
  rw [metadata_eq]
  split
  · exact (Parsed.Fits.none _).imp one_le_optional
  next some =>
    refine Parsed.Fits.imp (.wrap ?_) le_optional
    have parts : (metadataParts tokens).Fits
        (optional (node .documentation) * (node .annotationAttachment)∗) :=
      (fits_documentation _).andThen (fits_attachments _)
    refine ⟨?_, parts.inside⟩
    have held := parts.parts
    rw [Shape.optional, add_mul, one_mul] at held
    rcases held with attached | documented
    · exact .inr (Shape.mem_mul_kstar attached (by simpa using some))
    · exact .inl documented

end Grammar

end ServiceAnnotator
