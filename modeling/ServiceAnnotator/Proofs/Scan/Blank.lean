import Mathlib.Data.List.TakeWhile
import ServiceAnnotator.Proofs.Scan.Name

/-!
# Blanks and names

An identifier holds no blank, not even an escaped one. So cutting the blanks off both ends of a text
that starts or ends with an identifier leaves the identifier, and something beside it only if there
was more than blanks.
-/

namespace ServiceAnnotator

namespace Text

/-- All blank characters. -/
def blanks : List Char :=
  [0x09, 0x0a, 0x0b, 0x0c, 0x0d, 0x20, 0x85, 0xa0, 0x1680, 0x2000, 0x2001, 0x2002, 0x2003, 0x2004,
    0x2005, 0x2006, 0x2007, 0x2008, 0x2009, 0x200a, 0x2028, 0x2029, 0x202f, 0x205f, 0x3000].map
    Char.ofNat

theorem mem_blanks {c : Char} (blank : isBlank c) : c ∈ blanks := by
  have controls : ∀ count ≤ 4, Char.ofNat (0x09 + count) ∈ blanks := by decide
  have others : ∀ range ∈ blankRanges, ∀ count ≤ range.2 - range.1,
      Char.ofNat (range.1 + count) ∈ blanks := by
    decide
  rw [isBlank] at blank
  split at blank
  · simp only [Bool.or_eq_true, beq_iff_eq, Bool.and_eq_true, decide_eq_true_eq] at blank
    rcases blank with rfl | ⟨above, below⟩
    · decide
    · have inside := controls (c.toNat - 0x09) (by omega)
      rwa [Nat.add_sub_cancel' above, Char.ofNat_toNat] at inside
  · obtain ⟨range, isRange, within⟩ := List.any_eq_true.mp blank
    simp only [Bool.and_eq_true, decide_eq_true_eq] at within
    have inside := others range isRange (c.toNat - range.1) (by omega)
    rwa [Nat.add_sub_cancel' within.1, Char.ofNat_toNat] at inside

/-! ## What is left of a text without the blanks at its ends -/

theorem dropWhile_eq_self {word : List Char} (noBlank : ∀ c ∈ word, isBlank c = false) :
    word.dropWhile isBlank = word := by
  cases word with
  | nil => rfl
  | cons first rest => rw [List.dropWhile_cons_of_neg (by simp [noBlank first])]

/-- In front of a word only blanks at the start of the text are cut off. -/
theorem trim_append_word {word : List Char} (some : word ≠ [])
    (noBlank : ∀ c ∈ word, isBlank c = false) (front : List Char) :
    trim (front ++ word) = front.dropWhile isBlank ++ word := by
  have noBlankBack : ∀ c ∈ word.reverse, isBlank c = false := by simpa using noBlank
  have someBack : (word.reverse.dropWhile isBlank).isEmpty = false := by
    rw [dropWhile_eq_self noBlankBack]
    simpa using some
  rw [trim, List.dropWhile_append]
  split
  · rename_i onlyBlanks
    rw [List.isEmpty_iff.mp onlyBlanks, List.nil_append, dropWhile_eq_self noBlank,
      dropWhile_eq_self noBlankBack, List.reverse_reverse]
  · rw [List.reverse_append, List.dropWhile_append, someBack, if_neg Bool.false_ne_true,
      dropWhile_eq_self noBlankBack, ← List.reverse_append, List.reverse_reverse]

/-- Behind a word only blanks at the end of the text are cut off. -/
theorem trim_word_append {word : List Char} (some : word ≠ [])
    (noBlank : ∀ c ∈ word, isBlank c = false) (behind : List Char) :
    trim (word ++ behind) = word ++ (behind.reverse.dropWhile isBlank).reverse := by
  have noBlankBack : ∀ c ∈ word.reverse, isBlank c = false := by simpa using noBlank
  have someFront : (word.dropWhile isBlank).isEmpty = false := by
    rw [dropWhile_eq_self noBlank]
    simpa using some
  rw [trim, List.dropWhile_append, someFront, if_neg Bool.false_ne_true, dropWhile_eq_self noBlank,
    List.reverse_append, List.dropWhile_append]
  split
  · rename_i onlyBlanks
    rw [List.isEmpty_iff.mp onlyBlanks, dropWhile_eq_self noBlankBack, List.reverse_reverse,
      List.reverse_nil, List.append_nil]
  · rw [List.reverse_append, List.reverse_reverse]

theorem trim_append_word_eq_iff {word : List Char} (some : word ≠ [])
    (noBlank : ∀ c ∈ word, isBlank c = false) (front : List Char) :
    trim (front ++ word) = word ↔ ∀ c ∈ front, isBlank c := by
  rw [trim_append_word some noBlank, List.append_left_eq_self, List.dropWhile_eq_nil_iff]

theorem trim_word_append_eq_iff {word : List Char} (some : word ≠ [])
    (noBlank : ∀ c ∈ word, isBlank c = false) (behind : List Char) :
    trim (word ++ behind) = word ↔ ∀ c ∈ behind, isBlank c := by
  rw [trim_word_append some noBlank, List.append_right_eq_self, List.reverse_eq_nil_iff,
    List.dropWhile_eq_nil_iff]
  simp only [List.mem_reverse]

theorem length_trim_le (cs : List Char) : (trim cs).length ≤ cs.length := by
  have front := (List.dropWhile_suffix isBlank (l := cs)).length_le
  have back := (List.dropWhile_suffix isBlank (l := (cs.dropWhile isBlank).reverse)).length_le
  rw [trim, List.length_reverse]
  rw [List.length_reverse] at back
  omega

end Text

namespace Scan

open Text (isBlank)

theorem isBlank_of_isIdentifierPart {c : Char} (part : isIdentifierPart c) : isBlank c = false := by
  rw [Bool.eq_false_iff]
  intro blank
  have others : Text.blanks.all fun c => !isIdentifierPart c := by decide +kernel
  have other := List.all_eq_true.mp others c (Text.mem_blanks blank)
  rw [part] at other
  cases other

theorem isBlank_of_isEscapable {c : Char} (escapable : isEscapable c) : isBlank c = false := by
  rw [isEscapable, Bool.and_eq_true, Bool.not_eq_true'] at escapable
  exact escapable.2

/-- The rest of an identifier holds no blank. -/
theorem isBlank_of_mem_identifierTail (cs : List Char) :
    ∀ c ∈ cs.take (identifierTail cs), isBlank c = false := by
  fun_induction identifierTail cs with
  | case1 => simp
  | case2 c part => simpa using isBlank_of_isIdentifierPart part
  | case3 c part => simp
  | case4 c d cs escape ih =>
    obtain ⟨rfl, escapable⟩ : c = '\\' ∧ isEscapable d := by simpa using escape
    rw [Nat.add_comm, List.take_succ_cons, List.take_succ_cons]
    simp only [List.forall_mem_cons]
    exact ⟨by decide, isBlank_of_isEscapable escapable, ih⟩
  | case5 c d cs noEscape part ih =>
    rw [Nat.add_comm, List.take_succ_cons]
    simp only [List.forall_mem_cons]
    exact ⟨isBlank_of_isIdentifierPart part, ih⟩
  | case6 c d cs noEscape part => simp

end Scan

namespace Token

open Text (isBlank)

/-- An identifier holds no blank. -/
theorem Reads.isBlank_of_mem {token : Token} {after : List Char} (reads : token.Reads after)
    (isIdentifier : token.kind = .identifier) : ∀ c ∈ token.lexeme, isBlank c = false := by
  obtain ⟨first, rest, lexemeEq, counted⟩ := reads.exists_lexeme
  rw [isIdentifier] at counted
  rw [lexemeEq]
  simp only [List.forall_mem_cons]
  rcases Scan.lexemeTail_eq_identifier counted with
    ⟨rfl, _, ends⟩ | ⟨rfl, escape, ends⟩ | ⟨start, ends, _⟩
  · have tail := Scan.isBlank_of_mem_identifierTail (rest ++ (token.trailing.text ++ after))
    rw [ends, List.take_left] at tail
    exact ⟨by decide, tail⟩
  · refine ⟨by decide, ?_⟩
    cases rest with
    | nil => simp
    | cons escaped rest =>
      simp only [List.cons_append, List.drop_succ_cons, List.drop_zero, List.length_cons] at ends
      have tail := Scan.isBlank_of_mem_identifierTail (rest ++ (token.trailing.text ++ after))
      rw [show Scan.identifierTail (rest ++ (token.trailing.text ++ after)) = rest.length by omega,
        List.take_left] at tail
      simp only [List.forall_mem_cons]
      exact ⟨Scan.isBlank_of_isEscapable escape, tail⟩
  · have tail := Scan.isBlank_of_mem_identifierTail (rest ++ (token.trailing.text ++ after))
    rw [ends, List.take_left] at tail
    exact ⟨Scan.isBlank_of_isIdentifierPart (Scan.isIdentifierPart_of_start start), tail⟩

end Token

end ServiceAnnotator
