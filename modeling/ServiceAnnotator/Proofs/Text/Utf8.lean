import Mathlib.Data.List.Forall2
import ServiceAnnotator.Text.Utf8

/-!
# Decoding and encoding

The ranges by which bytes are read admit the UTF-8 forms of characters and nothing else. Reading
therefore undoes encoding, and it stops being a text behind the longest part that is a form of one.
-/

namespace ServiceAnnotator.Text.Utf8

/-! ## The forms of characters -/

/-- Whether a byte can follow the first byte of a character. -/
def IsTail (b : UInt8) : Prop := 0x80 ≤ b.toNat ∧ b.toNat < 0xc0

/-- The bytes of a character, by their number. They count no number that has a shorter form, and
only numbers of characters. -/
inductive WellFormed : UInt8 → List UInt8 → Prop
  | one {first : UInt8} : first.toNat < 0x80 → WellFormed first []
  | two {first b : UInt8} : 0xc0 ≤ first.toNat → first.toNat < 0xe0 → IsTail b →
      0x80 ≤ codePoint first [b] → WellFormed first [b]
  | three {first b c : UInt8} : 0xe0 ≤ first.toNat → first.toNat < 0xf0 → IsTail b → IsTail c →
      0x800 ≤ codePoint first [b, c] → (codePoint first [b, c]).isValidChar →
      WellFormed first [b, c]
  | four {first b c d : UInt8} : 0xf0 ≤ first.toNat → first.toNat < 0xf8 → IsTail b → IsTail c →
      IsTail d → 0x10000 ≤ codePoint first [b, c, d] → (codePoint first [b, c, d]).isValidChar →
      WellFormed first [b, c, d]

theorem toNat_ofNat {n : Nat} (valid : n.isValidChar) : (Char.ofNat n).val.toNat = n := by
  rw [Char.ofNat, dif_pos valid]
  rfl

theorem ofNat_eq {b : UInt8} {n : Nat} (same : n % 256 = b.toNat) : UInt8.ofNat n = b :=
  UInt8.toNat_inj.mp ((UInt8.toNat_ofNat' ..).trans same)

@[simp] theorem codePoint_one (first : UInt8) : codePoint first [] = first.toNat % 128 := rfl

@[simp] theorem codePoint_two (first b : UInt8) :
    codePoint first [b] = 64 * (first.toNat % 32) + b.toNat % 64 := rfl

@[simp] theorem codePoint_three (first b c : UInt8) :
    codePoint first [b, c] = 64 * (64 * (first.toNat % 16) + b.toNat % 64) + c.toNat % 64 := rfl

@[simp] theorem codePoint_four (first b c d : UInt8) :
    codePoint first [b, c, d] =
      64 * (64 * (64 * (first.toNat % 8) + b.toNat % 64) + c.toNat % 64) + d.toNat % 64 := rfl

theorem WellFormed.isValidChar {first : UInt8} {tail : List UInt8}
    (formed : WellFormed first tail) : (codePoint first tail).isValidChar := by
  cases formed with
  | one ascii =>
    left
    rw [codePoint_one]
    omega
  | two low high isTail shortest =>
    left
    rw [codePoint_two]
    omega
  | three low high second third shortest valid => exact valid
  | four low high second third fourth shortest valid => exact valid

/-- Well-formed bytes are the form of the character that they count. -/
theorem encode_of_wellFormed {first : UInt8} {tail : List UInt8} (formed : WellFormed first tail) :
    String.utf8EncodeChar (Char.ofNat (codePoint first tail)) = first :: tail := by
  have value := toNat_ofNat formed.isValidChar
  rw [String.utf8EncodeChar]
  simp only [value]
  cases formed with
  | one ascii =>
    rw [codePoint_one, if_pos (by omega), ofNat_eq (b := first) (by omega)]
  | @two b low high second shortest =>
    obtain ⟨b_low, b_high⟩ := second
    rw [codePoint_two] at shortest ⊢
    rw [if_neg (by omega), if_pos (by omega), ofNat_eq (b := first) (by omega),
      ofNat_eq (b := b) (by omega)]
  | @three b c low high second third shortest valid =>
    obtain ⟨b_low, b_high⟩ := second
    obtain ⟨c_low, c_high⟩ := third
    rw [codePoint_three] at shortest ⊢
    rw [if_neg (by omega), if_neg (by omega), if_pos (by omega), ofNat_eq (b := first) (by omega),
      ofNat_eq (b := b) (by omega), ofNat_eq (b := c) (by omega)]
  | @four b c d low high second third fourth shortest valid =>
    obtain ⟨b_low, b_high⟩ := second
    obtain ⟨c_low, c_high⟩ := third
    obtain ⟨d_low, d_high⟩ := fourth
    rw [codePoint_four] at shortest ⊢
    rw [if_neg (by omega), if_neg (by omega), if_neg (by omega), ofNat_eq (b := first) (by omega),
      ofNat_eq (b := b) (by omega), ofNat_eq (b := c) (by omega), ofNat_eq (b := d) (by omega)]

/-- A byte that follows the first one holds six bits of the number. -/
theorem toNat_tail (n : Nat) : (UInt8.ofNat (n % 64 + 128)).toNat = n % 64 + 128 :=
  UInt8.toNat_ofNat_of_lt' (show _ < 256 by omega)

theorem isTail_ofNat (n : Nat) : IsTail (UInt8.ofNat (n % 64 + 128)) := by
  rw [IsTail, toNat_tail]
  omega

theorem toNat_tail_mod (n : Nat) : (UInt8.ofNat (n % 64 + 128)).toNat % 64 = n % 64 := by
  rw [toNat_tail]
  omega

/-- The form of a character is well formed and counts the character. -/
theorem exists_wellFormed (c : Char) :
    ∃ first tail, String.utf8EncodeChar c = first :: tail ∧ WellFormed first tail ∧
      Char.ofNat (codePoint first tail) = c := by
  suffices bytes : ∃ first tail, String.utf8EncodeChar c = first :: tail ∧
      WellFormed first tail ∧ codePoint first tail = c.toNat by
    obtain ⟨first, tail, encoded, formed, value⟩ := bytes
    exact ⟨first, tail, encoded, formed, value ▸ Char.ofNat_toNat c⟩
  have valid : c.toNat.isValidChar := c.valid
  have value : c.val.toNat = c.toNat := rfl
  simp only [String.utf8EncodeChar, value]
  generalize c.toNat = v at valid
  have bound : v < 0x110000 := valid.elim (fun low => by omega) And.right
  by_cases one : v ≤ 0x7f
  · rw [if_pos one]
    have same : (UInt8.ofNat v).toNat = v := UInt8.toNat_ofNat_of_lt' (show _ < 256 by omega)
    refine ⟨_, _, rfl, .one (by omega), ?_⟩
    rw [codePoint_one]
    omega
  by_cases two : v ≤ 0x7ff
  · rw [if_neg one, if_pos two]
    have leads : (UInt8.ofNat (v / 64 % 32 + 192)).toNat = v / 64 % 32 + 192 :=
      UInt8.toNat_ofNat_of_lt' (show _ < 256 by omega)
    have counts : codePoint (UInt8.ofNat (v / 64 % 32 + 192)) [UInt8.ofNat (v % 64 + 128)] = v := by
      rw [codePoint_two, leads, toNat_tail_mod]
      omega
    refine ⟨_, _, rfl, .two ?_ ?_ (isTail_ofNat _) ?_, counts⟩
    · omega
    · omega
    · rw [counts]
      omega
  by_cases three : v ≤ 0xffff
  · rw [if_neg one, if_neg two, if_pos three]
    have leads : (UInt8.ofNat (v / 4096 % 16 + 224)).toNat = v / 4096 % 16 + 224 :=
      UInt8.toNat_ofNat_of_lt' (show _ < 256 by omega)
    have counts : codePoint (UInt8.ofNat (v / 4096 % 16 + 224))
        [UInt8.ofNat (v / 64 % 64 + 128), UInt8.ofNat (v % 64 + 128)] = v := by
      rw [codePoint_three, leads, toNat_tail_mod, toNat_tail_mod]
      omega
    refine ⟨_, _, rfl, .three ?_ ?_ (isTail_ofNat _) (isTail_ofNat _) ?_ (counts.symm ▸ valid),
      counts⟩
    · omega
    · omega
    · rw [counts]
      omega
  · rw [if_neg one, if_neg two, if_neg three]
    have leads : (UInt8.ofNat (v / 262144 % 8 + 240)).toNat = v / 262144 % 8 + 240 :=
      UInt8.toNat_ofNat_of_lt' (show _ < 256 by omega)
    have counts : codePoint (UInt8.ofNat (v / 262144 % 8 + 240))
        [UInt8.ofNat (v / 4096 % 64 + 128), UInt8.ofNat (v / 64 % 64 + 128),
          UInt8.ofNat (v % 64 + 128)] = v := by
      rw [codePoint_four, leads, toNat_tail_mod, toNat_tail_mod, toNat_tail_mod]
      omega
    refine ⟨_, _, rfl, .four ?_ ?_ (isTail_ofNat _) (isTail_ofNat _) (isTail_ofNat _) ?_
      (counts.symm ▸ valid), counts⟩
    · omega
    · omega
    · rw [counts]
      omega

/-! ## The ranges of the table -/

/-- Whether a byte lies in a range. -/
def InRange (b : UInt8) (range : UInt8 × UInt8) : Prop := range.1 ≤ b ∧ b ≤ range.2

theorem inRange_tail {b : UInt8} : InRange b (0x80, 0xbf) ↔ IsTail b :=
  Iff.and Iff.rfl Nat.lt_succ_iff.symm

/-- A range that is narrow at an end only under a condition. -/
theorem inRange_narrow {b low high : UInt8} {p q : Prop} [Decidable p] [Decidable q]
    (isLow : 0x80 ≤ low.toNat) (isHigh : high.toNat < 0xc0) :
    InRange b (if p then low else 0x80, if q then high else 0xbf) ↔
      IsTail b ∧ (p → low.toNat ≤ b.toNat) ∧ (q → b.toNat ≤ high.toNat) := by
  simp only [InRange, IsTail, UInt8.le_iff_toNat_le, apply_ite UInt8.toNat, UInt8.reduceToNat]
  by_cases isNarrowLow : p <;> by_cases isNarrowHigh : q <;>
    simp only [isNarrowLow, isNarrowHigh, if_true, if_false, forall_const,
      false_implies, and_true, true_and] <;> omega

section

variable {first : UInt8}

theorem tailRanges?_one (ascii : first.toNat < 0x80) : tailRanges? first = some [] :=
  if_pos (Nat.le_of_lt_succ ascii)

theorem tailRanges?_two (low : 0xc2 ≤ first.toNat) (high : first.toNat < 0xe0) :
    tailRanges? first = some [(0x80, 0xbf)] := by
  simp only [tailRanges?, UInt8.le_iff_toNat_le, UInt8.lt_iff_toNat_lt, UInt8.reduceToNat]
  rw [if_neg (by omega), if_neg (by omega), if_pos (by omega)]

theorem tailRanges?_three (low : 0xe0 ≤ first.toNat) (high : first.toNat < 0xf0) :
    tailRanges? first = some
      [(if first.toNat = 0xe0 then 0xa0 else 0x80, if first.toNat = 0xed then 0x9f else 0xbf),
        (0x80, 0xbf)] := by
  simp only [tailRanges?, UInt8.le_iff_toNat_le, UInt8.lt_iff_toNat_lt, ← UInt8.toNat_inj,
    UInt8.reduceToNat]
  rw [if_neg (by omega), if_neg (by omega), if_neg (by omega)]
  by_cases e0 : first.toNat = 0xe0
  · rw [if_pos e0, if_pos e0, if_neg (by omega)]
  by_cases ed : first.toNat = 0xed
  · rw [if_neg e0, if_neg e0, if_pos ed, if_pos ed]
  · rw [if_neg e0, if_neg e0, if_neg ed, if_neg ed, if_pos (by omega)]

theorem tailRanges?_four (low : 0xf0 ≤ first.toNat) (high : first.toNat ≤ 0xf4) :
    tailRanges? first = some
      [(if first.toNat = 0xf0 then 0x90 else 0x80, if first.toNat = 0xf4 then 0x8f else 0xbf),
        (0x80, 0xbf), (0x80, 0xbf)] := by
  simp only [tailRanges?, UInt8.le_iff_toNat_le, UInt8.lt_iff_toNat_lt, ← UInt8.toNat_inj,
    UInt8.reduceToNat]
  rw [if_neg (by omega), if_neg (by omega), if_neg (by omega), if_neg (by omega), if_neg (by omega),
    if_neg (by omega)]
  by_cases f0 : first.toNat = 0xf0
  · rw [if_pos f0, if_pos f0, if_neg (by omega)]
  by_cases f4 : first.toNat = 0xf4
  · rw [if_neg f0, if_neg f0, if_neg (by omega), if_pos f4, if_pos f4]
  · rw [if_neg f0, if_neg f0, if_pos (by omega), if_neg f4]

/-- The bytes that start a character, by the number of bytes that follow. -/
theorem of_tailRanges?_eq_some {ranges : List (UInt8 × UInt8)}
    (isRow : tailRanges? first = some ranges) :
    first.toNat < 0x80 ∨ (0xc2 ≤ first.toNat ∧ first.toNat < 0xe0) ∨
      (0xe0 ≤ first.toNat ∧ first.toNat < 0xf0) ∨ (0xf0 ≤ first.toNat ∧ first.toNat ≤ 0xf4) := by
  by_contra other
  simp only [tailRanges?, UInt8.le_iff_toNat_le, UInt8.lt_iff_toNat_lt, ← UInt8.toNat_inj,
    UInt8.reduceToNat] at isRow
  by_cases low : first.toNat < 0xc2
  · rw [if_neg (by omega), if_pos low] at isRow
    cases isRow
  · rw [if_neg (by omega), if_neg low, if_neg (by omega), if_neg (by omega), if_neg (by omega),
      if_neg (by omega), if_neg (by omega), if_neg (by omega), if_neg (by omega)] at isRow
    cases isRow

end

/-! ## Well-formed bytes by their number -/

section

variable {first b c d : UInt8}

theorem codePoint_two_add (low : 0xc0 ≤ first.toNat) (high : first.toNat < 0xe0)
    (second : IsTail b) : codePoint first [b] + 0x3080 = 64 * first.toNat + b.toNat := by
  obtain ⟨b_low, b_high⟩ := second
  rw [codePoint_two]
  omega

theorem codePoint_three_add (low : 0xe0 ≤ first.toNat) (high : first.toNat < 0xf0)
    (second : IsTail b) (third : IsTail c) :
    codePoint first [b, c] + 0xe2080 = 4096 * first.toNat + 64 * b.toNat + c.toNat := by
  obtain ⟨b_low, b_high⟩ := second
  obtain ⟨c_low, c_high⟩ := third
  rw [codePoint_three]
  omega

theorem codePoint_four_add (low : 0xf0 ≤ first.toNat) (high : first.toNat < 0xf8)
    (second : IsTail b) (third : IsTail c) (fourth : IsTail d) :
    codePoint first [b, c, d] + 0x3c82080 =
      262144 * first.toNat + 4096 * b.toNat + 64 * c.toNat + d.toNat := by
  obtain ⟨b_low, b_high⟩ := second
  obtain ⟨c_low, c_high⟩ := third
  obtain ⟨d_low, d_high⟩ := fourth
  rw [codePoint_four]
  omega

/-- Two bytes count a number that has no shorter form if and only if the first is large enough. -/
theorem wellFormed_two_iff (low : 0xc0 ≤ first.toNat) (high : first.toNat < 0xe0) :
    WellFormed first [b] ↔ 0xc2 ≤ first.toNat ∧ IsTail b := by
  constructor
  · intro formed
    cases formed with
    | two _ _ second shortest =>
      have value := codePoint_two_add low high second
      have below := second.2
      exact ⟨by omega, second⟩
  · rintro ⟨large, second⟩
    have value := codePoint_two_add low high second
    have above := second.1
    exact .two low high second (by omega)

/-- Three bytes count no number that has a shorter form and no surrogate if and only if the second
byte lies in its range. -/
theorem wellFormed_three_iff (low : 0xe0 ≤ first.toNat) (high : first.toNat < 0xf0) :
    WellFormed first [b, c] ↔
      InRange b (if first.toNat = 0xe0 then 0xa0 else 0x80,
        if first.toNat = 0xed then 0x9f else 0xbf) ∧ IsTail c := by
  rw [inRange_narrow (by decide) (by decide)]
  simp only [UInt8.reduceToNat]
  constructor
  · intro formed
    cases formed with
    | three _ _ second third shortest valid =>
      have value := codePoint_three_add low high second third
      rw [Nat.isValidChar] at valid
      refine ⟨⟨second, ?_, ?_⟩, third⟩
      all_goals
        obtain ⟨b_low, b_high⟩ := second
        obtain ⟨c_low, c_high⟩ := third
        omega
  · rintro ⟨⟨second, notShorter, noSurrogate⟩, third⟩
    have value := codePoint_three_add low high second third
    refine .three low high second third ?_ ?_
    all_goals
      obtain ⟨b_low, b_high⟩ := second
      obtain ⟨c_low, c_high⟩ := third
    · omega
    · rw [Nat.isValidChar]
      omega

/-- Four bytes count no number that has a shorter form and none past the last code point if and only
if the second byte lies in its range. -/
theorem wellFormed_four_iff (low : 0xf0 ≤ first.toNat) (high : first.toNat < 0xf8) :
    WellFormed first [b, c, d] ↔
      first.toNat ≤ 0xf4 ∧
        InRange b (if first.toNat = 0xf0 then 0x90 else 0x80,
          if first.toNat = 0xf4 then 0x8f else 0xbf) ∧ IsTail c ∧ IsTail d := by
  rw [inRange_narrow (by decide) (by decide)]
  simp only [UInt8.reduceToNat]
  constructor
  · intro formed
    cases formed with
    | four _ _ second third fourth shortest valid =>
      have value := codePoint_four_add low high second third fourth
      have below : codePoint first [b, c, d] < 0x110000 := by
        rw [Nat.isValidChar] at valid
        omega
      refine ⟨?_, ⟨second, ?_, ?_⟩, third, fourth⟩
      all_goals
        obtain ⟨b_low, b_high⟩ := second
        obtain ⟨c_low, c_high⟩ := third
        obtain ⟨d_low, d_high⟩ := fourth
        omega
  · rintro ⟨notPast, ⟨second, notShorter, notTooLarge⟩, third, fourth⟩
    have value := codePoint_four_add low high second third fourth
    obtain ⟨b_low, b_high⟩ := second
    obtain ⟨c_low, c_high⟩ := third
    obtain ⟨d_low, d_high⟩ := fourth
    have shortest : 0x10000 ≤ codePoint first [b, c, d] := by omega
    have below : codePoint first [b, c, d] < 0x110000 := by omega
    exact .four low high ⟨b_low, b_high⟩ ⟨c_low, c_high⟩ ⟨d_low, d_high⟩ shortest
      (.inr ⟨by omega, below⟩)

end

/-- The ranges admit the bytes of characters and nothing else. -/
theorem wellFormed_iff {first : UInt8} {tail : List UInt8} :
    WellFormed first tail ↔
      ∃ ranges, tailRanges? first = some ranges ∧ List.Forall₂ InRange tail ranges := by
  constructor
  · intro formed
    have known := formed
    cases formed with
    | one ascii => exact ⟨_, tailRanges?_one ascii, .nil⟩
    | two low high =>
      obtain ⟨large, second⟩ := (wellFormed_two_iff low high).mp known
      exact ⟨_, tailRanges?_two large high, .cons (inRange_tail.mpr second) .nil⟩
    | three low high =>
      obtain ⟨narrow, third⟩ := (wellFormed_three_iff low high).mp known
      exact ⟨_, tailRanges?_three low high, .cons narrow (.cons (inRange_tail.mpr third) .nil)⟩
    | four low high =>
      obtain ⟨notPast, narrow, third, fourth⟩ := (wellFormed_four_iff low high).mp known
      exact ⟨_, tailRanges?_four low notPast, .cons narrow
        (.cons (inRange_tail.mpr third) (.cons (inRange_tail.mpr fourth) .nil))⟩
  · rintro ⟨ranges, isRow, inside⟩
    rcases of_tailRanges?_eq_some isRow with ascii | ⟨low, high⟩ | ⟨low, high⟩ | ⟨low, high⟩
    · rw [tailRanges?_one ascii] at isRow
      obtain rfl := Option.some.inj isRow
      cases inside
      exact .one ascii
    · rw [tailRanges?_two low high] at isRow
      obtain rfl := Option.some.inj isRow
      match tail, inside with
      | [b], .cons second .nil =>
        exact (wellFormed_two_iff (by omega) high).mpr ⟨low, inRange_tail.mp second⟩
    · rw [tailRanges?_three low high] at isRow
      obtain rfl := Option.some.inj isRow
      match tail, inside with
      | [b, c], .cons narrow (.cons third .nil) =>
        exact (wellFormed_three_iff low high).mpr ⟨narrow, inRange_tail.mp third⟩
    · rw [tailRanges?_four low high] at isRow
      obtain rfl := Option.some.inj isRow
      match tail, inside with
      | [b, c, d], .cons narrow (.cons third (.cons fourth .nil)) =>
        exact (wellFormed_four_iff low (by omega)).mpr
          ⟨high, narrow, inRange_tail.mp third, inRange_tail.mp fourth⟩

/-! ## Reading -/

theorem encode_cons (c : Char) (cs : List Char) :
    encode (c :: cs) = String.utf8EncodeChar c ++ encode cs := rfl

theorem encode_append (cs ds : List Char) : encode (cs ++ ds) = encode cs ++ encode ds :=
  List.flatMap_append

theorem length_encode (cs : List Char) : (encode cs).length = byteLength cs := by
  induction cs with
  | nil => rfl
  | cons c cs ih =>
    rw [encode_cons, List.length_append, ih, byteLength_cons, String.length_utf8EncodeChar]

theorem inRanges_prefix (ranges : List (UInt8 × UInt8)) (bytes : List UInt8) :
    inRanges ranges bytes <+: bytes := by
  induction ranges generalizing bytes with
  | nil => exact List.nil_prefix
  | cons range ranges ih =>
    cases bytes with
    | nil => exact List.prefix_rfl
    | cons b bytes =>
      rw [inRanges]
      split
      · exact List.cons_prefix_cons.mpr ⟨rfl, ih bytes⟩
      · exact List.nil_prefix

theorem inRanges_append {tail : List UInt8} {ranges : List (UInt8 × UInt8)}
    (inside : List.Forall₂ InRange tail ranges) (rest : List UInt8) :
    inRanges ranges (tail ++ rest) = tail := by
  induction inside with
  | nil => rfl
  | cons isInside _ ih =>
    rw [List.cons_append, inRanges, ih]
    exact if_pos isInside

theorem forall₂_inRanges {ranges : List (UInt8 × UInt8)} {bytes : List UInt8}
    (complete : (inRanges ranges bytes).length = ranges.length) :
    List.Forall₂ InRange (inRanges ranges bytes) ranges := by
  induction ranges generalizing bytes with
  | nil => exact .nil
  | cons range ranges ih =>
    cases bytes with
    | nil => cases complete
    | cons b bytes =>
      rw [inRanges] at complete ⊢
      split
      · rename_i isInside
        rw [if_pos isInside] at complete
        exact .cons isInside (ih (Nat.succ.inj complete))
      · rename_i outside
        rw [if_neg outside] at complete
        cases complete

/-- A well-formed character is read, whatever follows it. -/
theorem read_of_wellFormed {first : UInt8} {tail : List UInt8} (formed : WellFormed first tail)
    (rest : List UInt8) :
    read (first :: (tail ++ rest)) = some (Char.ofNat (codePoint first tail)) :: read rest := by
  obtain ⟨ranges, isRow, inside⟩ := wellFormed_iff.mp formed
  have complete : some ranges.length = some tail.length := congrArg some inside.length_eq.symm
  rw [read]
  simp only [isRow, Option.getD_some, inRanges_append inside, Option.map_some, if_pos complete,
    List.drop_left]

/-- Where something is read, a well-formed character stands; otherwise nothing is read. -/
theorem read_cons (first : UInt8) (bytes : List UInt8) :
    (∃ tail, WellFormed first tail ∧ tail <+: bytes) ∨
      ∃ rest, read (first :: bytes) = none :: read rest := by
  rw [read]
  by_cases complete : (tailRanges? first).map List.length =
      some (inRanges ((tailRanges? first).getD []) bytes).length
  · obtain ⟨ranges, isRow, same⟩ := Option.map_eq_some_iff.mp complete
    rw [isRow, Option.getD_some] at same
    exact .inl ⟨_, wellFormed_iff.mpr ⟨ranges, isRow, forall₂_inRanges same.symm⟩,
      inRanges_prefix ranges bytes⟩
  · simp only [if_neg complete]
    exact .inr ⟨_, rfl⟩

/-- The UTF-8 form of a text is read as the text, whatever follows it. -/
theorem read_encode_append (cs : List Char) (rest : List UInt8) :
    read (encode cs ++ rest) = cs.map some ++ read rest := by
  induction cs with
  | nil => rfl
  | cons c cs ih =>
    obtain ⟨first, tail, isForm, formed, isChar⟩ := exists_wellFormed c
    rw [encode_cons, isForm, List.cons_append, List.cons_append, List.append_assoc,
      read_of_wellFormed formed, ih, isChar, List.map_cons, List.cons_append]

/-! ## The part before the first run that is not well formed -/

theorem validPrefix_encode_append (cs : List Char) (rest : List UInt8) :
    validPrefix (encode cs ++ rest) = cs ++ validPrefix rest := by
  rw [validPrefix, read_encode_append,
    List.takeWhile_append_of_pos (by simp only [List.mem_map]; rintro _ ⟨c, _, rfl⟩; rfl),
    List.filterMap_append, List.filterMap_map]
  exact congrArg (· ++ validPrefix rest) (List.filterMap_some)

/-- Bytes are a valid part, and behind it nothing or something that cannot be read. -/
theorem exists_eq_encode_validPrefix (bytes : List UInt8) :
    ∃ rest, bytes = encode (validPrefix bytes) ++ rest ∧
      (rest = [] ∨ ∃ more, read rest = none :: read more) := by
  suffices split : ∃ cs rest, bytes = encode cs ++ rest ∧
      (rest = [] ∨ ∃ more, read rest = none :: read more) by
    obtain ⟨cs, rest, rfl, stops⟩ := split
    have nothing : validPrefix rest = [] := by
      rcases stops with rfl | ⟨more, unread⟩
      · rw [validPrefix, read]
        rfl
      · rw [validPrefix, unread]
        rfl
    exact ⟨rest, by rw [validPrefix_encode_append, nothing, List.append_nil], stops⟩
  -- Reading goes on behind a character, not at the next byte, so the induction is on the length.
  generalize bound : bytes.length = length
  induction length using Nat.strongRecOn generalizing bytes with
  | _ length ih =>
    cases bytes with
    | nil => exact ⟨[], [], rfl, .inl rfl⟩
    | cons first others =>
      rcases read_cons first others with ⟨tail, formed, further, rfl⟩ | unread
      · have shorter : further.length < length := by
          rw [← bound, List.length_cons, List.length_append]
          omega
        obtain ⟨cs, rest, rfl, stops⟩ := ih further.length shorter further rfl
        refine ⟨Char.ofNat (codePoint first tail) :: cs, rest, ?_, stops⟩
        rw [encode_cons, encode_of_wellFormed formed, List.append_assoc, List.cons_append]
      · exact ⟨[], first :: others, rfl, .inr unread⟩

/-- No longer part at the front of bytes is valid. -/
theorem prefix_validPrefix {cs : List Char} {bytes : List UInt8} (isFront : encode cs <+: bytes) :
    cs <+: validPrefix bytes := by
  obtain ⟨rest, rfl⟩ := isFront
  rw [validPrefix_encode_append]
  exact List.prefix_append ..

/-! ## Decoding -/

theorem mapM_map_some (cs : List Char) : (cs.map some).mapM id = some cs := by
  induction cs with
  | nil => rfl
  | cons c cs ih =>
    rw [List.map_cons, List.mapM_cons, ih]
    rfl

theorem mapM_append_none (cs : List Char) (more : List (Option Char)) :
    (cs.map some ++ none :: more).mapM id = none := by
  rw [List.mapM_append, mapM_map_some, List.mapM_cons]
  rfl

theorem decode?_encode (cs : List Char) : decode? (encode cs) = some cs := by
  have isRead := read_encode_append cs []
  rw [List.append_nil, read, List.append_nil] at isRead
  rw [decode?, isRead, mapM_map_some]

/-- Bytes can be decoded if and only if they are the UTF-8 form of a text. -/
theorem decode?_eq_some_iff {bytes : List UInt8} {cs : List Char} :
    decode? bytes = some cs ↔ encode cs = bytes := by
  refine ⟨fun decoded => ?_, fun isForm => isForm ▸ decode?_encode cs⟩
  obtain ⟨rest, isSplit, rfl | ⟨more, unread⟩⟩ := exists_eq_encode_validPrefix bytes
  · rw [List.append_nil] at isSplit
    rw [isSplit, decode?_encode] at decoded
    rw [isSplit, Option.some.inj decoded]
  · rw [decode?, isSplit, read_encode_append, unread, mapM_append_none] at decoded
    cases decoded

theorem isSome_decode?_iff {bytes : List UInt8} :
    (decode? bytes).isSome ↔ ∃ cs, encode cs = bytes := by
  simp only [Option.isSome_iff_exists, decode?_eq_some_iff]

theorem encode_inj {cs ds : List Char} (same : encode cs = encode ds) : cs = ds :=
  Option.some.inj ((decode?_encode cs).symm.trans (same ▸ decode?_encode ds))

theorem decodeLossy_encode (cs : List Char) : decodeLossy (encode cs) = cs := by
  have isRead := read_encode_append cs []
  rw [List.append_nil, read, List.append_nil] at isRead
  rw [decodeLossy, isRead, List.map_map]
  exact List.map_id cs

/-- Bytes that are not valid are decoded as their valid part with a replacement right behind it. -/
theorem decodeLossy_of_invalid {bytes : List UInt8} (invalid : ¬∃ cs, encode cs = bytes) :
    ∃ more, decodeLossy bytes = validPrefix bytes ++ replacement :: more := by
  obtain ⟨rest, isSplit, rfl | ⟨more, unread⟩⟩ := exists_eq_encode_validPrefix bytes
  · rw [List.append_nil] at isSplit
    exact absurd ⟨_, isSplit.symm⟩ invalid
  · refine ⟨decodeLossy more, ?_⟩
    conv_lhs => rw [isSplit]
    rw [decodeLossy, read_encode_append, unread, List.map_append, List.map_map]
    exact congrArg (· ++ replacement :: decodeLossy more) (List.map_id _)

end ServiceAnnotator.Text.Utf8
