import ServiceAnnotator.Proofs.Grammar.Accepts
import ServiceAnnotator.Proofs.Grammar.Frame.Member

/-!
# Declarations at the end of the tokens

A construct that is read without a report up to the end of the tokens is read the same with more
tokens behind. All but the last of its tokens stand in front of other tokens already, so what is
left to show of each rule concerns the token that it ends with. A flat declaration looks at the kind
behind that token, and ends there if what follows starts like an item of a module.
-/

namespace ServiceAnnotator

/-! ## Rules that do not see the end -/

namespace Parsed

variable {α : Type} {left right : Parsed α} {rest more : List α}

theorem Same.clean (same : left.Same right rest) (noReports : left.reports = []) :
    right.Clean rest := by
  have noProblems : right.problems = [] := by
    rw [same.problems, Parsed.problems, noReports, List.map_nil]
  exact ⟨List.map_eq_nil_iff.mp noProblems, same.rest⟩

/-- A reading with more tokens behind gives the same, provided that the first one takes all of its
tokens without a report. -/
def Extends (more : List α) (left right : Parsed α) : Prop := left.Clean [] → left.Same right more

namespace Extends

theorem of_not_clean (stuck : ¬left.Clean []) : Extends more left right :=
  fun clean => absurd clean stuck

theorem last (token : α) (tokens : List α) :
    Extends more ⟨[.leaf token], [], tokens⟩ ⟨[.leaf token], [], tokens ++ more⟩ := by
  rintro ⟨_, rfl⟩
  exact ⟨rfl, rfl, rfl⟩

theorem cons (extends_ : Extends more left right) (element : Tree α) :
    Extends more (left.cons element) (right.cons element) :=
  fun clean => (extends_ clean).cons element

theorem wrap (extends_ : Extends more left right) (kind : Kind) :
    Extends more (left.wrap kind) (right.wrap kind) :=
  fun clean => (extends_ clean).wrap kind

/-- A rule that needs a token is the last one to read, so the rules in front of it leave
something. -/
theorem andThen {rule : List α → Parsed α} (stuck : ¬(rule []).Clean [])
    (front : left.rest ≠ [] → left.Same right (left.rest ++ more))
    (back : Extends more (rule left.rest) (rule (left.rest ++ more))) :
    Extends more (left.andThen rule) (right.andThen rule) := by
  intro clean
  obtain ⟨mid, ⟨_, rfl⟩, cleanBack⟩ := (clean_andThen rule).mp clean
  have some : left.rest ≠ [] := by
    intro empty
    rw [empty] at cleanBack
    exact stuck cleanBack
  exact (front some).andThen (back cleanBack)

end Extends

end Parsed

namespace Grammar

open Parsed (Agrees Extends)

variable {α : Type} [Kinded α] {more : List α}

/-- A rule that leaves tokens behind reads the same with more tokens behind those. -/
theorem same_append {rule : List α → Parsed α}
    (composed : ∀ tokens, (rule tokens).Composed tokens)
    (agrees : ∀ {rest rest' : List α}, Follows rest rest' → ∀ front,
      Agrees rest rest' (rule (front ++ rest)) (rule (front ++ rest')))
    (tokens more : List α) (some : (rule tokens).rest ≠ []) :
    (rule tokens).Same (rule (tokens ++ more)) ((rule tokens).rest ++ more) := by
  obtain ⟨front, split⟩ := (composed tokens).covers.exists_front
  obtain ⟨first, behind, restEq⟩ := List.exists_cons_of_ne_nil some
  rw [restEq] at split ⊢
  subst split
  rw [List.append_assoc]
  exact agrees (.same behind (behind ++ more) rfl) front [] restEq

theorem next_append_of_ne {tokens : List α} {kind : Kind} (found : next tokens = kind)
    (some : kind ≠ .endOfFile) : next (tokens ++ more) = kind := by
  cases tokens with
  | nil => exact absurd found.symm some
  | cons first rest => exact found

/-- A token that is needed is taken, or else it is missed. -/
theorem extends_needed {kind : Kind} (some : kind ≠ .endOfFile) (problem : Problem)
    (tokens : List α) :
    Extends more (if next tokens = kind then .tokens 1 tokens else .problem problem tokens)
      (if next (tokens ++ more) = kind then .tokens 1 (tokens ++ more)
      else .problem problem (tokens ++ more)) := by
  cases tokens with
  | nil =>
    rw [next, if_neg some.symm]
    exact .of_not_clean (Parsed.not_clean_problem _ _)
  | cons first rest =>
    rw [List.cons_append, next, next]
    split
    · exact .last first rest
    · exact .of_not_clean (Parsed.not_clean_problem _ _)

theorem extends_expect {kind : Kind} (some : kind ≠ .endOfFile) (tokens : List α) :
    Extends more (expect kind tokens) (expect kind (tokens ++ more)) := by
  rw [expect_eq some, expect_eq some]
  exact extends_needed some _ tokens

theorem extends_bodyEnd (tokens : List α) :
    Extends more (bodyEnd tokens) (bodyEnd (tokens ++ more)) :=
  extends_needed (by decide) _ tokens

theorem extends_importDeclaration (keyword : α) (tokens : List α) :
    Extends more (importDeclaration keyword tokens) (importDeclaration keyword (tokens ++ more)) := by
  rw [importDeclaration_eq, importDeclaration_eq]
  refine (Extends.cons ?_ _).wrap _
  exact .andThen (Parsed.not_clean_problem _ _)
    (same_append composed_importPath agrees_importPath tokens more) (extends_expect (by decide) _)

/-! ## Services -/

theorem composed_bodyFront (tokens : List α) : (bodyFront tokens).Composed tokens := .tokens _ _

theorem extends_serviceBody (tokens : List α) :
    Extends more (serviceBody tokens) (serviceBody (tokens ++ more)) := by
  rw [serviceBody_eq, serviceBody_eq]
  by_cases opened : next tokens = .leftBrace
  · rw [if_pos opened, if_pos (next_append_of_ne opened (by decide))]
    refine Extends.wrap ?_ _
    exact .andThen (Parsed.not_clean_problem _ _)
      (same_append composed_bodyFront agrees_bodyFront tokens more) (extends_bodyEnd _)
  · rw [if_neg opened]
    exact .of_not_clean (Parsed.not_clean_problem _ _)

theorem extends_serviceParts (tokens : List α) :
    Extends more (serviceParts tokens) (serviceParts (tokens ++ more)) :=
  .andThen (Parsed.not_clean_problem _ _)
    (same_append composed_serviceHeader agrees_serviceHeader tokens more) (extends_serviceBody _)

/-! ## Declarations -/

/-- The same for a reading that also tells a kind. -/
def ExtendsWithKind (more : List α) (left right : Kind × Parsed α) : Prop :=
  left.2.Clean [] → right.1 = left.1 ∧ left.2.Same right.2 more

namespace ExtendsWithKind

omit [Kinded α]

theorem of_not_clean {left right : Kind × Parsed α} (stuck : ¬left.2.Clean []) :
    ExtendsWithKind more left right :=
  fun clean => absurd clean stuck

theorem of_extends {left right : Parsed α} (kind : Kind) (extends_ : Extends more left right) :
    ExtendsWithKind more (kind, left) (kind, right) :=
  fun clean => ⟨rfl, extends_ clean⟩

theorem cons {left right : Kind × Parsed α} (extends_ : ExtendsWithKind more left right)
    (element : Tree α) :
    ExtendsWithKind more (left.map id (Parsed.cons element))
      (right.map id (Parsed.cons element)) := by
  intro clean
  obtain ⟨sameKind, same⟩ := extends_ clean
  exact ⟨sameKind, same.cons element⟩

end ExtendsWithKind

theorem extends_plainRun (ends : endsDeclaration (next more)) (kind : Kind) (depth : Nat)
    (tokens : List α) :
    ExtendsWithKind more (plainRun kind depth tokens) (plainRun kind depth (tokens ++ more)) := by
  induction tokens generalizing kind depth with
  | nil => exact .of_not_clean (Parsed.not_clean_problem _ _)
  | cons token tokens ih =>
    have sameEnd : endsDeclaration (next (tokens ++ more)) = endsDeclaration (next tokens) := by
      cases tokens with
      | nil => exact ends
      | cons => rfl
    rw [List.cons_append, plainRun_cons, plainRun_cons, sameEnd]
    split
    · exact .of_extends _ (.last token tokens)
    · split
      · exact (ih _ _).cons _
      · split
        · exact (ih _ _).cons _
        · split
          · exact .of_not_clean (Parsed.not_clean_report _ _)
          · split
            · exact .of_extends _ (.last token tokens)
            · exact (ih _ _).cons _
        · exact (ih _ _).cons _

theorem extends_service (ends : endsDeclaration (next more)) (keyword : α) (tokens : List α) :
    ExtendsWithKind more (service keyword tokens) (service keyword (tokens ++ more)) := by
  cases tokens with
  | nil =>
    refine .of_not_clean fun clean => ?_
    cases clean.1
  | cons first rest =>
    rw [List.cons_append, service_eq, service_eq, next, next]
    split
    · exact (extends_plainRun ends _ _ (first :: rest)).cons _
    · exact .of_extends _ ((extends_serviceParts (first :: rest)).cons _)

theorem extends_declaration (ends : endsDeclaration (next more)) (tokens : List α) :
    ExtendsWithKind more (declaration tokens) (declaration (tokens ++ more)) := by
  cases tokens with
  | nil => exact .of_not_clean (Parsed.not_clean_problem _ _)
  | cons first rest =>
    rw [List.cons_append, declaration, declaration]
    split
    · exact extends_service ends first rest
    · split
      · exact extends_plainRun ends _ _ (first :: rest)
      · exact .of_not_clean (Parsed.not_clean_problem _ _)

/-! ## Members -/

theorem extends_qualified (ends : endsDeclaration (next more)) (tokens : List α) :
    ExtendsWithKind more (qualified tokens) (qualified (tokens ++ more)) := by
  intro clean
  have declared : (declaration (tokens.drop (countIn qualifiers tokens))).2.Clean [] := clean
  -- A declaration takes at least one token, so the qualifiers do not reach the end.
  have inside : countIn qualifiers tokens < tokens.length := by
    by_contra beyond
    rw [List.drop_eq_nil_of_le (Nat.le_of_not_lt beyond)] at declared
    exact Parsed.not_clean_problem _ _ declared
  have sameCount : countIn qualifiers (tokens ++ more) = countIn qualifiers tokens := by
    rw [countIn, countIn, List.takeWhile_append, if_neg]
    exact Nat.ne_of_lt inside
  have bound := Nat.le_of_lt inside
  obtain ⟨sameKind, same⟩ := extends_declaration ends _ declared
  rw [qualified, qualified, sameCount, List.drop_append_of_le_length bound]
  refine ⟨sameKind, ?_, same.problems, same.rest⟩
  simp only [Prod.map_snd, Parsed.andThen, Parsed.tokens, same.elements,
    List.take_append_of_le_length bound]

theorem metadata_append (tokens more : List α) (some : (metadata tokens).rest ≠ []) :
    (metadata tokens).Same (metadata (tokens ++ more)) ((metadata tokens).rest ++ more) := by
  obtain ⟨front, split⟩ := (composed_metadata tokens).covers.exists_front
  have noSign := next_rest_metadata_ne tokens
  obtain ⟨first, behind, restEq⟩ := List.exists_cons_of_ne_nil some
  rw [restEq] at split noSign ⊢
  subst split
  rw [List.append_assoc]
  exact same_metadata (.same behind (behind ++ more) rfl) noSign front restEq

theorem extends_member (ends : endsDeclaration (next more)) (tokens : List α) :
    Extends more (member tokens) (member (tokens ++ more)) := by
  intro clean
  rw [member_eq, Parsed.clean_wrap] at clean
  obtain ⟨_, ⟨_, rfl⟩, cleanBehind⟩ := (Parsed.clean_andThen _).mp clean
  have some : (metadata tokens).rest ≠ [] := by
    intro empty
    rw [empty] at cleanBehind
    exact Parsed.not_clean_problem _ _ cleanBehind
  have whole : Extends more ((metadata tokens).andThen fun behind => (qualified behind).2)
      ((metadata (tokens ++ more)).andThen fun behind => (qualified behind).2) :=
    .andThen (Parsed.not_clean_problem _ _) (metadata_append tokens more) fun clean =>
      (extends_qualified ends _ clean).2
  rw [member_eq, member_eq, (metadata_append tokens more some).rest,
    (extends_qualified ends _ cleanBehind).1]
  exact whole.wrap _ clean

/-! ## Items in front of a module -/

/-- An import that is read without a report reads the same with more tokens behind. -/
theorem importDeclaration_append (keyword : α) {tokens mid : List α} (more : List α)
    (clean : (importDeclaration keyword tokens).Clean mid) :
    (importDeclaration keyword tokens).Same (importDeclaration keyword (tokens ++ more))
      (mid ++ more) := by
  cases mid with
  | nil => exact extends_importDeclaration keyword tokens clean
  | cons first behind =>
    have composed := (composed_importPath tokens).andThen (composed_expect .semicolon _)
    obtain ⟨front, split⟩ := composed.covers.exists_front
    rw [importDeclaration_eq, Parsed.clean_wrap, Parsed.clean_cons] at clean
    rw [clean.2] at split
    subst split
    rw [List.append_assoc]
    exact agrees_importDeclaration (.same behind (behind ++ more) rfl) keyword front [] clean.2

/-- A member that is read without a report reads the same with more tokens behind, which start like
an item of a module. -/
theorem member_append {tokens mid : List α} (clean : (member tokens).Clean mid)
    (ends : endsDeclaration (next more)) :
    (member tokens).Same (member (tokens ++ more)) (mid ++ more) := by
  cases mid with
  | nil => exact extends_member ends tokens clean
  | cons first behind =>
    obtain ⟨front, split⟩ := (composed_member tokens).covers.exists_front
    rw [clean.2] at split
    subst split
    rw [List.append_assoc]
    exact same_member (.same behind (behind ++ more) rfl) front clean.2

end Grammar

end ServiceAnnotator
