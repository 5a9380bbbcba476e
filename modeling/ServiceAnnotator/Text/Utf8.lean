import ServiceAnnotator.Text.Bytes

/-!
# UTF-8

Bytes are read as characters. Where they are not well formed, reading goes on behind the longest run
of bytes that could have begun a character, or behind one byte when there is no such run.
-/

namespace ServiceAnnotator.Text.Utf8

/-- The UTF-8 form of a text. -/
def encode (cs : List Char) : List UInt8 := cs.flatMap String.utf8EncodeChar

/-- The ranges of the bytes that follow a first byte; there are none when no character starts with
that byte. The second range is narrow where the full one would admit a longer form of a shorter
character, a surrogate, or a number past the last code point. -/
def tailRanges? (first : UInt8) : Option (List (UInt8 × UInt8)) :=
  if first ≤ 0x7f then some []
  else if first < 0xc2 then none
  else if first ≤ 0xdf then some [(0x80, 0xbf)]
  else if first = 0xe0 then some [(0xa0, 0xbf), (0x80, 0xbf)]
  else if first = 0xed then some [(0x80, 0x9f), (0x80, 0xbf)]
  else if first ≤ 0xef then some [(0x80, 0xbf), (0x80, 0xbf)]
  else if first = 0xf0 then some [(0x90, 0xbf), (0x80, 0xbf), (0x80, 0xbf)]
  else if first ≤ 0xf3 then some [(0x80, 0xbf), (0x80, 0xbf), (0x80, 0xbf)]
  else if first = 0xf4 then some [(0x80, 0x8f), (0x80, 0xbf), (0x80, 0xbf)]
  else none

/-- The bytes at the front that lie in the given ranges, at most one for each range. -/
def inRanges : List (UInt8 × UInt8) → List UInt8 → List UInt8
  | (low, high) :: ranges, b :: bytes =>
    if low ≤ b ∧ b ≤ high then b :: inRanges ranges bytes else []
  | _, _ => []

/-- The code point of a first byte and the bytes that follow it. -/
def codePoint (first : UInt8) (tail : List UInt8) : Nat :=
  let leading := if tail.isEmpty then 128 else Nat.pow 2 (6 - tail.length)
  tail.foldl (fun n b => 64 * n + b.toNat % 64) (first.toNat % leading)

/-- The characters that bytes stand for, and nothing in the place of each run that is not well
formed. -/
def read : List UInt8 → List (Option Char)
  | [] => []
  | first :: bytes =>
    let ranges? := tailRanges? first
    let tail := inRanges (ranges?.getD []) bytes
    let char? :=
      if ranges?.map List.length = some tail.length then some (Char.ofNat (codePoint first tail))
      else none
    char? :: read (bytes.drop tail.length)
termination_by bytes => bytes.length
decreasing_by
  simp only [List.length_drop, List.length_cons]
  omega

/-- The text that bytes stand for, if all of them are well formed. -/
def decode? (bytes : List UInt8) : Option (List Char) := (read bytes).mapM id

/-- The character that stands for a run of bytes that is not well formed. -/
def replacement : Char := '\ufffd'

/-- The text that bytes stand for, with a replacement for each run that is not well formed. -/
def decodeLossy (bytes : List UInt8) : List Char := (read bytes).map (·.getD replacement)

/-- The characters before the first run of bytes that is not well formed. -/
def validPrefix (bytes : List UInt8) : List Char :=
  ((read bytes).takeWhile (·.isSome)).filterMap id

end ServiceAnnotator.Text.Utf8
