import ServiceAnnotator.Proofs.Attachment.Target
import ServiceAnnotator.Proofs.Scan.Blank

/-!
# Qualified references as texts and as tokens

Whether an attachment refers to a name of a module is decided on the text of its reference, cut at
its colons. The tokens of the reference tell the same if and only if the reference is legible: its
names hold no colon, and nothing but blanks stands between a name and the colon next to it.
-/

namespace ServiceAnnotator

namespace Attachment

open Text (isBlank length_trim_le trim trim_append_word_eq_iff trim_word_append_eq_iff)

/-! ## Texts cut at their colons -/

theorem afterColon_eq (text : List Char) : afterColon text = (beforeColon text.reverse).reverse := rfl

theorem length_beforeColon_le (text : List Char) : (beforeColon text).length ≤ text.length :=
  (List.takeWhile_prefix _).length_le

theorem beforeColon_append {word : List Char} (noColon : ':' ∉ word) (behind : List Char) :
    beforeColon (word ++ behind) = word ++ beforeColon behind := by
  rw [beforeColon, List.takeWhile_append_of_pos fun c inside => by
    simpa using ne_of_mem_of_not_mem inside noColon]
  rfl

theorem beforeColon_append_colon (front behind : List Char) :
    beforeColon (front ++ ':' :: behind) = beforeColon front := by
  induction front with
  | nil => rfl
  | cons c front ih =>
    rw [List.cons_append, beforeColon, List.takeWhile_cons, beforeColon, List.takeWhile_cons]
    split
    · exact congrArg (c :: ·) ih
    · rfl

theorem length_beforeColon_lt {word : List Char} (colon : ':' ∈ word) (behind : List Char) :
    (beforeColon (word ++ behind)).length < word.length := by
  obtain ⟨front, rest, rfl⟩ := List.append_of_mem colon
  rw [List.append_assoc, List.cons_append, beforeColon_append_colon, List.length_append,
    List.length_cons]
  have bound := length_beforeColon_le front
  omega

theorem afterColon_append {word : List Char} (noColon : ':' ∉ word) (front : List Char) :
    afterColon (front ++ word) = afterColon front ++ word := by
  rw [afterColon_eq, List.reverse_append, beforeColon_append (by simpa using noColon),
    List.reverse_append, List.reverse_reverse, afterColon_eq]

theorem afterColon_append_colon (front behind : List Char) :
    afterColon (front ++ ':' :: behind) = afterColon behind := by
  rw [afterColon_eq, List.reverse_append, List.reverse_cons, List.append_assoc,
    List.singleton_append, beforeColon_append_colon, afterColon_eq]

theorem length_afterColon_lt {word : List Char} (colon : ':' ∈ word) (front : List Char) :
    (afterColon (front ++ word)).length < word.length := by
  have shorter := length_beforeColon_lt (List.mem_reverse.mpr colon) front.reverse
  rwa [← List.reverse_append, ← List.length_reverse, ← afterColon_eq, List.length_reverse]
    at shorter

/-- A part that is shorter than a word is not the word, with blanks around it or without. -/
theorem trim_ne_of_length_lt {part word : List Char} (shorter : part.length < word.length) :
    trim part ≠ word := by
  rintro rfl
  exact Nat.not_lt.mpr (length_trim_le part) shorter

/-- The part of a text in front of its first colon is a word if and only if the word holds no colon
and nothing but blanks stands between them. -/
theorem trim_beforeColon_eq_iff {word : List Char} (some : word ≠ [])
    (noBlank : ∀ c ∈ word, isBlank c = false) (gap behind : List Char) :
    trim (beforeColon (word ++ gap ++ ':' :: behind)) = word ↔
      ':' ∉ word ∧ ∀ c ∈ beforeColon gap, isBlank c := by
  rw [beforeColon_append_colon]
  by_cases colon : ':' ∈ word
  · exact iff_of_false (trim_ne_of_length_lt (length_beforeColon_lt colon gap))
      fun noColon => noColon.1 colon
  · rw [beforeColon_append colon, trim_word_append_eq_iff some noBlank, and_iff_right colon]

/-- The part of a text behind its last colon is a word if and only if the word holds no colon and
nothing but blanks stands between them. -/
theorem trim_afterColon_eq_iff {word : List Char} (some : word ≠ [])
    (noBlank : ∀ c ∈ word, isBlank c = false) (front gap : List Char) :
    trim (afterColon (front ++ ':' :: (gap ++ word))) = word ↔
      ':' ∉ word ∧ ∀ c ∈ afterColon gap, isBlank c := by
  rw [afterColon_append_colon]
  by_cases colon : ':' ∈ word
  · exact iff_of_false (trim_ne_of_length_lt (length_afterColon_lt colon gap))
      fun noColon => noColon.1 colon
  · rw [afterColon_append colon, trim_append_word_eq_iff some noBlank, and_iff_right colon]

/-! ## References -/

/-- The text between the significant parts of two tokens. -/
def between (left right : Token) : List Char := left.trailing.text ++ right.leading.text

/-- The three tokens of a qualified reference, if none of them is missing. -/
def parts? : Tree Token → Option (Token × Token × Token)
  | .node .qualifiedNameReference [.leaf front, .leaf colon, .leaf last] => some (front, colon, last)
  | _ => none

/-- Whether a reference consists of the name of a module, a colon and a name. -/
def Names (moduleName name : List Char) (reference : Tree Token) : Prop :=
  reference.kind = .qualifiedNameReference ∧
    (ReferenceView.first? reference).map Token.lexeme = some moduleName ∧
    (ReferenceView.identifier? reference).map Token.lexeme = some name

instance (moduleName name : List Char) (reference : Tree Token) :
    Decidable (Names moduleName name reference) :=
  inferInstanceAs (Decidable (_ ∧ _ ∧ _))

/-- Whether the text of a reference tells its names: a qualified reference has no colon in its
names, only blanks from the first name to the first colon, and only blanks from the last colon to
the second name. So there may be a comment only behind the colon, and only one that ends with a
colon and blanks. -/
def Legible (reference : Tree Token) : Prop :=
  ∀ parts ∈ parts? reference,
    (':' ∉ parts.1.lexeme ∧ ∀ c ∈ beforeColon (between parts.1 parts.2.1), isBlank c) ∧
      (':' ∉ parts.2.2.lexeme ∧ ∀ c ∈ afterColon (between parts.2.1 parts.2.2), isBlank c)

instance (reference : Tree Token) : Decidable (Legible reference) :=
  decidable_of_iff
    (∀ parts ∈ parts? reference,
      (':' ∉ parts.1.lexeme ∧ (beforeColon (between parts.1 parts.2.1)).all isBlank) ∧
        (':' ∉ parts.2.2.lexeme ∧ (afterColon (between parts.2.1 parts.2.2)).all isBlank))
    (by simp only [Legible, List.all_eq_true])

theorem legible_qualified (front colon last : Token) :
    Legible (.node .qualifiedNameReference [.leaf front, .leaf colon, .leaf last]) ↔
      (':' ∉ front.lexeme ∧ ∀ c ∈ beforeColon (between front colon), isBlank c) ∧
        (':' ∉ last.lexeme ∧ ∀ c ∈ afterColon (between colon last), isBlank c) := by
  simp only [Legible, parts?, Option.mem_some_iff, forall_eq']

/-- A reference as it is read: a name, a name and a colon, or two names with a colon between
them. -/
inductive IsReference : Tree Token → Prop where
  | simple {name : Token} : name.kind = .identifier →
      IsReference (.node .simpleNameReference [.leaf name])
  | unfinished {front colon : Token} : front.kind = .identifier → colon.kind = .colon →
      IsReference (.node .qualifiedNameReference [.leaf front, .leaf colon])
  | qualified {front colon last : Token} : front.kind = .identifier → colon.kind = .colon →
      last.kind = .identifier →
      IsReference (.node .qualifiedNameReference [.leaf front, .leaf colon, .leaf last])

/-- The text of a qualified reference. -/
theorem trimmedText_qualified {front colon last : Token} (isColon : colon.lexeme = [':']) :
    (Tree.node .qualifiedNameReference [.leaf front, .leaf colon, .leaf last]).trimmedText =
      front.lexeme ++ between front colon ++ ':' :: (between colon last ++ last.lexeme) := by
  simp [Tree.trimmedText, Tree.trimmed, Tree.text, Tree.changeLast, Token.text, between, isColon,
    Token.withoutLeading, Token.withLeading, Token.withoutTrailing, Token.withTrailing]

theorem trimmedText_unfinished {front colon : Token} (isColon : colon.lexeme = [':']) :
    (Tree.node .qualifiedNameReference [.leaf front, .leaf colon]).trimmedText =
      front.lexeme ++ between front colon ++ [':'] := by
  simp [Tree.trimmedText, Tree.trimmed, Tree.text, Tree.changeLast, Token.text, between, isColon,
    Token.withoutLeading, Token.withLeading, Token.withoutTrailing, Token.withTrailing]

theorem names_qualified {front colon last : Token} (isFront : front.kind = .identifier)
    (isColon : colon.kind = .colon) (isLast : last.kind = .identifier)
    (moduleName name : List Char) :
    Names moduleName name
        (.node .qualifiedNameReference [.leaf front, .leaf colon, .leaf last]) ↔
      front.lexeme = moduleName ∧ last.lexeme = name := by
  have kindColon : (Kinded.kind colon) = .colon := isColon
  have kindFront : (Kinded.kind front) = .identifier := isFront
  have kindLast : (Kinded.kind last) = .identifier := isLast
  simp [Names, Tree.kind, ReferenceView.first?, ReferenceView.identifier?, Tree.itemOfKind?,
    Tree.items, Tree.children, Tree.item?, kindColon, kindFront, kindLast]

theorem not_names_unfinished {front colon : Token} (isFront : front.kind = .identifier)
    (isColon : colon.kind = .colon) (moduleName name : List Char) :
    ¬Names moduleName name (.node .qualifiedNameReference [.leaf front, .leaf colon]) := by
  have kindColon : (Kinded.kind colon) = .colon := isColon
  have kindFront : (Kinded.kind front) = .identifier := isFront
  simp [Names, ReferenceView.identifier?, Tree.items, Tree.children, Tree.item?, kindColon,
    kindFront]

/-- The text and the tokens of a reference tell the same names if and only if it is legible. -/
theorem legible_iff {reference : Tree Token} (isReference : IsReference reference)
    (reads : ∀ token ∈ reference.leaves, ∃ after, token.Reads after) :
    Legible reference ↔ ∀ moduleName name, name ≠ [] →
      ((reference.kind == .qualifiedNameReference &&
        names moduleName name reference.trimmedText) = true ↔ Names moduleName name reference) := by
  cases isReference with
  | simple _ =>
    exact iff_of_true (by simp [Legible, parts?]) fun _ _ _ =>
      iff_of_false (by simp [Tree.kind]) (by simp [Names, Tree.kind])
  | unfinished isFront isColon =>
    rename_i front colon
    obtain ⟨_, readsColon⟩ := reads colon (by simp)
    refine iff_of_true (by simp [Legible, parts?]) fun moduleName name some => iff_of_false ?_ ?_
    · have nothing : trim (afterColon []) = [] := rfl
      rw [trimmedText_unfinished (readsColon.lexeme_of_colon isColon), names,
        afterColon_append_colon, nothing]
      simp [some]
    · exact not_names_unfinished isFront isColon moduleName name
  | qualified isFront isColon isLast =>
    rename_i front colon last
    obtain ⟨_, readsFront⟩ := reads front (by simp)
    obtain ⟨_, readsColon⟩ := reads colon (by simp)
    obtain ⟨_, readsLast⟩ := reads last (by simp)
    have frontIff := trim_beforeColon_eq_iff readsFront.some (readsFront.isBlank_of_mem isFront)
      (between front colon) (between colon last ++ last.lexeme)
    have lastIff := trim_afterColon_eq_iff readsLast.some (readsLast.isBlank_of_mem isLast)
      (front.lexeme ++ between front colon) (between colon last)
    rw [legible_qualified, ← frontIff, ← lastIff,
      trimmedText_qualified (readsColon.lexeme_of_colon isColon)]
    simp only [names_qualified isFront isColon isLast, Tree.kind, BEq.rfl, Bool.true_and, names,
      Bool.and_eq_true, beq_iff_eq]
    constructor
    · rintro ⟨sameFront, sameLast⟩ moduleName name _
      rw [sameFront, sameLast, and_comm]
    · intro same
      exact ((same front.lexeme last.lexeme readsLast.some).mpr ⟨rfl, rfl⟩).symm

end Attachment

end ServiceAnnotator
