import ServiceAnnotator.Toml.Lexical

/-!
# Numbers, dates and times of TOML

Their values are not kept, only checked: an integer has 64 bits, a date is one of the calendar, and
a positive decimal number lies within the range of binary numbers of 64 bits.
-/

namespace ServiceAnnotator.Toml

open Reader

/-! ## Numbers -/

/-- Reads more digits, each of which may have an underscore in front. -/
def moreDigits (isDigit : Char → Bool) : Reader (List Char) :=
  many (one isDigit <|> (do
    word ['_']
    one isDigit))

/-- Reads digits, with single underscores between them. -/
def digits (isDigit : Char → Bool) : Reader (List Char) := do
  let first ← one isDigit
  let others ← moreDigits isDigit
  pure (first :: others)

/-- Reads decimal digits that do not start with a needless zero. -/
def decimalDigits : Reader (List Char) :=
  (do
    let first ← one fun c => c.isDigit && c ≠ '0'
    let others ← moreDigits Char.isDigit
    pure (first :: others)) <|> single (one Char.isDigit)

/-- The value of digits in a base. -/
def valueOf (base : Nat) (digits : List Char) : Nat :=
  digits.foldl (fun value c => base * value + (hexValue? c).getD 0) 0

/-- Reads a sign and tells whether it is a minus. -/
def sign : Reader Bool := do
  let found ← perhaps (one fun c => c = '+' || c = '-')
  pure (found == some '-')

/-- Reads a decimal integer. -/
def decimalInteger : Reader Unit := do
  let negative ← sign
  let value := valueOf 10 (← decimalDigits)
  if value < Nat.pow 2 63 + negative.toNat then pure () else failure

/-- Reads an integer whose base is given by a letter behind a zero. -/
def basedInteger (letter : Char) (base : Nat) : Reader Unit := do
  word ['0', letter]
  let value := valueOf base (← digits fun c => (hexValue? c).any (· < base))
  if value < Nat.pow 2 63 then pure () else failure

/-- Reads an integer. -/
def integer : Reader Unit :=
  basedInteger 'x' 16 <|> basedInteger 'o' 8 <|> basedInteger 'b' 2 <|> decimalInteger

/-- Whether a number times a power of ten is rounded beyond all binary numbers of 64 bits. -/
def exceedsRange (value : Nat) (exponent : Int) : Bool :=
  let bound := Nat.pow 2 1024 - Nat.pow 2 970
  let magnitude := ((toString value).length : Int) + exponent
  if value = 0 ∨ magnitude < 300 then false
  else if 310 < magnitude then true
  else if 0 ≤ exponent then bound ≤ value * Nat.pow 10 exponent.toNat
  else bound * Nat.pow 10 (-exponent).toNat ≤ value

/-- Reads the exponent of a decimal number. -/
def exponent : Reader Int := do
  let _ ← one fun c => c = 'e' || c = 'E'
  let negative ← sign
  let value := valueOf 10 (← digits Char.isDigit)
  pure (if negative then -value else value)

/-- Reads the digits behind a decimal point. -/
def fraction : Reader (List Char) := do
  word ['.']
  digits Char.isDigit

/-- Reads a number with a decimal point or an exponent. -/
def decimal : Reader Unit := do
  let negative ← sign
  let whole ← decimalDigits
  let (places, power) ←
    (do
      let places ← fraction
      let power ← perhaps exponent
      pure (places, power.getD 0)) <|> (do
      let power ← exponent
      pure ([], power))
  let tooLarge := exceedsRange (valueOf 10 (whole ++ places)) (power - places.length)
  if tooLarge && !negative then failure else pure ()

/-- Reads one of the numbers that have no digits. -/
def namedNumber : Reader Unit := do
  let _ ← sign
  word ['i', 'n', 'f'] <|> word ['n', 'a', 'n']

/-- Reads a number of any kind. -/
def number : Reader Unit := decimal <|> namedNumber <|> integer

/-! ## Dates and times -/

/-- Reads a number of decimal digits whose value lies between two bounds. -/
def bounded (count low high : Nat) : Reader Nat := do
  let rec go : Nat → Nat → Reader Nat
    | 0, value => pure value
    | count + 1, value => do
      let c ← one Char.isDigit
      go count (10 * value + (hexValue? c).getD 0)
  let value ← go count 0
  if low ≤ value ∧ value ≤ high then pure value else failure

/-- The days of a month. -/
def daysIn (year month : Nat) : Nat :=
  if month = 2 then
    if year % 4 = 0 ∧ (year % 100 ≠ 0 ∨ year % 400 = 0) then 29 else 28
  else if month = 4 ∨ month = 6 ∨ month = 9 ∨ month = 11 then 30
  else 31

/-- Reads a date. -/
def date : Reader Unit := do
  let year ← bounded 4 0 9999
  word ['-']
  let month ← bounded 2 1 12
  word ['-']
  let _ ← bounded 2 1 (daysIn year month)

/-- Reads an hour and a minute. -/
def hourMinute : Reader Unit := do
  let _ ← bounded 2 0 23
  word [':']
  let _ ← bounded 2 0 59

/-- Reads a time of day. The last second of a minute may be a leap second. -/
def time : Reader Unit := do
  hourMinute
  word [':']
  let _ ← bounded 2 0 60
  let _ ← perhaps (do
    word ['.']
    nonemptyRun Char.isDigit)

/-- Reads the offset of a time from the universal one. -/
def offset : Reader Unit :=
  (do let _ ← one fun c => c = 'Z' || c = 'z') <|> (do
    let _ ← one fun c => c = '+' || c = '-'
    hourMinute)

/-- Reads a date, a time, or both. -/
def moment : Reader Unit :=
  (do
    date
    let _ ← perhaps (do
      let _ ← one fun c => c = 'T' || c = 't' || c = ' '
      time
      perhaps offset)) <|> time

end ServiceAnnotator.Toml
