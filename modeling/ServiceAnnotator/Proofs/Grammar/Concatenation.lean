import ServiceAnnotator.Proofs.Grammar.Accepts.Module
import ServiceAnnotator.Proofs.Grammar.Frame.Ending

/-!
# Modules one behind the other

The items of a module without problems are read the same in front of the items of another one, which
are read the same behind them. The last token of such a module is a semicolon or a closing brace.
-/

open scoped Computability

namespace ServiceAnnotator

namespace Phrase

/-! ## What phrases end with -/

/-- Whether every phrase of a language has a last token, of a kind that satisfies a condition. -/
def EndsWith (language : Language Kind) (close : Kind → Prop) : Prop :=
  ∀ phrase ∈ language, ∃ last ∈ phrase.getLast?, close last

variable {left right : Language Kind} {close : Kind → Prop}

theorem endsWith_token {kind : Kind} (closes : close kind) : EndsWith (token kind) close := by
  rintro _ rfl
  exact ⟨kind, rfl, closes⟩

theorem EndsWith.mul (ends : EndsWith right close) (left : Language Kind) :
    EndsWith (left * right) close := by
  rintro _ ⟨front, _, back, inside, rfl⟩
  obtain ⟨last, isLast, closes⟩ := ends back inside
  exact ⟨last, List.mem_getLast?_append_of_mem_getLast? isLast, closes⟩

theorem EndsWith.add (endsLeft : EndsWith left close) (endsRight : EndsWith right close) :
    EndsWith (left + right) close := by
  rintro phrase (inside | inside)
  · exact endsLeft phrase inside
  · exact endsRight phrase inside

/-- The kinds that items of a module end with. -/
def ClosesItem (kind : Kind) : Prop := kind = .semicolon ∨ kind = .rightBrace

theorem endsWith_flat (behind : Kind) : EndsWith (flat behind) ClosesItem := by
  rintro phrase ⟨_, isFlat⟩
  obtain ⟨front, last, rfl, ends⟩ := isFlat.ends
  refine ⟨last, List.getLast?_concat, ?_⟩
  rcases ends with ⟨_, isSemicolon⟩ | ⟨_, isBrace, _⟩
  · exact .inl isSemicolon
  · exact .inr isBrace

theorem endsWith_item (behind : Kind) :
    EndsWith (importDeclaration + member behind) ClosesItem := by
  refine .add (.mul (endsWith_token (.inl rfl)) _) (.mul (.add ?_ (endsWith_flat behind)) _)
  exact .mul (.mul (.mul (endsWith_token (.inr rfl)) _) _) _

/-- The last token of a module closes its last item. -/
theorem IsModule.closesItem {phrase : List Kind} (isModule : IsModule phrase) {last : Kind}
    (isLast : last ∈ phrase.getLast?) : ClosesItem last := by
  induction isModule with
  | nil => cases isLast
  | @cons item rest isItem _ ih =>
    rw [List.getLast?_append] at isLast
    cases restLast : rest.getLast? with
    | some other =>
      rw [restLast] at isLast
      exact ih (restLast.trans isLast)
    | none =>
      obtain ⟨other, isOther, closes⟩ := endsWith_item _ item isItem
      rw [restLast, isOther] at isLast
      cases isLast
      exact closes

end Phrase

namespace Grammar

variable {α : Type} [Kinded α]

/-! ## Items behind items -/

theorem endsDeclaration_of_startsMember {kind : Kind} (starts : startsMember kind) :
    endsDeclaration kind := by
  revert starts
  cases kind <;> decide

/-- What is read without a report starts like an item, or there is nothing to read. -/
theorem endsDeclaration_next {tokens : List α} (noReports : (items tokens).reports = []) :
    endsDeclaration (next tokens) := by
  cases tokens with
  | nil => rfl
  | cons first rest =>
    rw [items_cons] at noReports
    split at noReports
    · rename_i isImport
      rw [next, isImport]
      rfl
    · split at noReports
      · rename_i starts
        exact endsDeclaration_of_startsMember starts
      · cases noReports

theorem andThen_items_of_same {item item' : Parsed α} {right : List α}
    (same : item.Same item' (item.rest ++ right)) (noReports : item.reports = [])
    (further : items (item.rest ++ right) = (items item.rest).andThen fun _ => items right) :
    item'.andThen items = (item.andThen items).andThen fun _ => items right := by
  obtain ⟨noReports', restEq⟩ := same.clean noReports
  simp only [Parsed.andThen] at further ⊢
  rw [restEq, further, same.elements, noReports, noReports']
  simp

/-- Items that are read without a report are read in front of others, too. -/
theorem items_append {right : List α} (ends : endsDeclaration (next right)) :
    ∀ left : List α, (items left).reports = [] →
      items (left ++ right) = (items left).andThen fun _ => items right
  | [], _ => by
    have nothing : items ([] : List α) = .none [] := by rw [items]
    rw [nothing, List.nil_append]
    rfl
  | first :: rest, noReports => by
    rw [items_cons] at noReports
    rw [List.cons_append, items_cons, items_cons]
    split
    · rename_i isImport
      rw [if_pos isImport] at noReports
      obtain ⟨noReport, later⟩ := List.append_eq_nil_iff.mp noReports
      have shorter : (importDeclaration first rest).rest.length < (first :: rest).length :=
        Nat.lt_succ_of_le (length_rest_importDeclaration_le ..)
      exact andThen_items_of_same (importDeclaration_append first right ⟨noReport, rfl⟩) noReport
        (items_append ends _ later)
    · rename_i noImport
      rw [if_neg noImport] at noReports
      split
      · rename_i starts
        rw [if_pos starts] at noReports
        obtain ⟨noReport, later⟩ := List.append_eq_nil_iff.mp noReports
        have shorter : (member (first :: rest)).rest.length < (first :: rest).length :=
          length_rest_member_lt starts
        exact andThen_items_of_same (member_append ⟨noReport, rfl⟩ ends) noReport
          (items_append ends _ later)
      · rename_i stuck
        rw [if_neg stuck] at noReports
        cases noReports
termination_by left => left.length
decreasing_by all_goals exact shorter

/-- The last token that is read without a report closes an item. -/
theorem closesItem_of_items {tokens : List α} (noReports : (items tokens).reports = []) {last : α}
    (isLast : last ∈ tokens.getLast?) : Phrase.ClosesItem (Kinded.kind last) := by
  have sameReports := congrArg Parsed.reports
    (items_map (f := (Kinded.kind : α → Kind)) (fun _ => rfl) tokens)
  have isModule := (reports_items_eq_nil_iff _).mp (sameReports.trans noReports)
  refine isModule.closesItem ?_
  rw [List.getLast?_map, isLast]
  rfl

end Grammar

end ServiceAnnotator
