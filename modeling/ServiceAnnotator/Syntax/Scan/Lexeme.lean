import ServiceAnnotator.Syntax.Kind
import ServiceAnnotator.Text.Alphabetic
import ServiceAnnotator.Text.Blank
import ServiceAnnotator.Text.Numeric

/-!
# Lexemes

The first character of a significant word selects a class, and each class says how many of the
following characters belong to the word. Since a class only counts characters, cutting a text into
words cannot lose any of it.
-/

namespace ServiceAnnotator.Scan

open ServiceAnnotator.Text

/-- Line breaks end comments, documentation lines and string literals. -/
def isLineBreak (c : Char) : Bool := c == '\n' || c == '\r'

/-- Characters that an identifier may start with. -/
def isIdentifierStart (c : Char) : Bool := c == '_' || isAlphabetic c

/-- Characters that an identifier may go on with. -/
def isIdentifierPart (c : Char) : Bool := c == '_' || isAlphabetic c || isNumeric c

/-- Characters that a backslash may escape in an identifier. -/
def isEscapable (c : Char) : Bool := c != '\x00' && !isBlank c

/-- Characters that form operators. -/
def isOperator (c : Char) : Bool := "=-+*%<>!&|^~".toList.contains c

/-- Number of characters at the front of a text that satisfy a condition. -/
def countWhile (p : Char → Bool) (cs : List Char) : Nat := (cs.takeWhile p).length

/-- Whether a text starts with a character that satisfies a condition. -/
def startsWith (p : Char → Bool) : List Char → Bool
  | [] => false
  | c :: _ => p c

/-- Length of the rest of an identifier: its characters, and escapes of two characters each. -/
def identifierTail : List Char → Nat
  | [] => 0
  | [c] => if isIdentifierPart c then 1 else 0
  | c :: d :: cs =>
    if c = '\\' && isEscapable d then 2 + identifierTail cs
    else if isIdentifierPart c then 1 + identifierTail (d :: cs)
    else 0

/-- Kind and length of the rest of a string literal, its closing quote included. A backslash takes
the next character with it. A literal that its line does not close is of unknown kind. -/
def stringTail : List Char → Kind × Nat
  | [] => (.unknown, 0)
  | '"' :: _ => (.stringLiteral, 1)
  | ['\\'] => (.unknown, 1)
  | '\\' :: c :: cs =>
    if isLineBreak c then (.unknown, 1)
    else
      let (kind, length) := stringTail cs
      (kind, 2 + length)
  | c :: cs =>
    if isLineBreak c then (.unknown, 0)
    else
      let (kind, length) := stringTail cs
      (kind, 1 + length)

/-- Kind and length of the rest of a template literal, which may run over many lines. -/
def templateTail (cs : List Char) : Kind × Nat :=
  let length := countWhile (· != '\x60') cs
  if length < cs.length then (.templateLiteral, length + 1) else (.unknown, length)

/-- Length of a fraction: a point with at least one digit behind it. -/
def fractionLength : List Char → Nat
  | '.' :: cs => if startsWith Char.isDigit cs then 1 + countWhile Char.isDigit cs else 0
  | _ => 0

/-- Length of an exponent: its letter, a sign and any number of digits. -/
def exponentLength : List Char → Nat
  | c :: cs =>
    if c = 'e' || c = 'E' then
      let sign := if startsWith (fun c => c == '+' || c == '-') cs then 1 else 0
      1 + sign + countWhile Char.isDigit (cs.drop sign)
    else 0
  | [] => 0

/-- Length of a suffix that names the type of a number. -/
def suffixLength (cs : List Char) : Nat :=
  if startsWith (fun c => c == 'd' || c == 'D' || c == 'f' || c == 'F') cs then 1 else 0

/-- Hexadecimal digits. -/
def isHexDigit (c : Char) : Bool :=
  c.isDigit || ('a' ≤ c && c ≤ 'f') || ('A' ≤ c && c ≤ 'F')

/-- Length of the rest of a number that starts with the given digit. -/
def numberTail (first : Char) (cs : List Char) : Nat :=
  if first = '0' && startsWith (fun c => c == 'x' || c == 'X') cs then
    1 + countWhile isHexDigit (cs.drop 1)
  else
    let whole := countWhile Char.isDigit cs
    let fraction := whole + fractionLength (cs.drop whole)
    let exponent := fraction + exponentLength (cs.drop fraction)
    exponent + suffixLength (cs.drop exponent)

/-- Kind of a word that starts like an identifier. -/
def wordKind (word : List Char) : Kind := (Kind.ofKeyword? word).getD .identifier

/-- Kind of the word that starts with `c`, and how many of the characters behind `c` belong to
it. -/
def lexemeTail (c : Char) (cs : List Char) : Kind × Nat :=
  match c with
  | '@' => (.atSign, 0)
  | ':' => (.colon, 0)
  | ';' => (.semicolon, 0)
  | ',' => (.comma, 0)
  | '(' => (.leftParen, 0)
  | ')' => (.rightParen, 0)
  | '{' => (.leftBrace, 0)
  | '}' => (.rightBrace, 0)
  | '[' => (.leftBracket, 0)
  | ']' => (.rightBracket, 0)
  | '?' => (.question, 0)
  | '/' => (.slash, 0)
  | '.' => if cs.take 2 = ['.', '.'] then (.ellipsis, 2) else (.dot, 0)
  | '"' => stringTail cs
  | '\x60' => templateTail cs
  | '#' => (.documentationLine, countWhile (!isLineBreak ·) cs)
  | '\'' =>
    if startsWith (fun c => isIdentifierStart c || c == '\\') cs then
      (.identifier, identifierTail cs)
    else (.unknown, 0)
  | '\\' =>
    if startsWith isEscapable cs then (.identifier, 1 + identifierTail (cs.drop 1))
    else (.unknown, 0)
  | _ =>
    if c = '=' && !startsWith (fun c => c == '=' || c == '>') cs then (.equals, 0)
    else if c.isDigit then (.numericLiteral, numberTail c cs)
    else if isIdentifierStart c then
      let length := identifierTail cs
      (wordKind (c :: cs.take length), length)
    else if isOperator c then (.operator, countWhile isOperator cs)
    else (.unknown, 0)

end ServiceAnnotator.Scan
