import HermesFlow.BinaryFloat

/-!
# Doubles as `std::from_chars` reads them

The conversion reads the longest decimal number at the front of a text: a minus,
digits with a point among them, and an exponent that has digits. There are no
blanks, no plus and no hexadecimal digits. Without a number it looks for an
infinity or a `nan`, in any case.
-/

namespace HermesFlow.Numeral

open BinaryFloat

/-- The number that decimal digits write. -/
def decimalValue (ds : List Char) : ℕ :=
  ds.foldl (fun value digit => value * 10 + (digit.toNat - 48)) 0

/-- A minus at the front, and what follows it. -/
def readMinus : List Char → Bool × List Char
  | '-' :: text => (true, text)
  | text => (false, text)

/-- The digits of a significand, how many of them are behind the point, and the rest. -/
def readSignificand (text : List Char) : Option (List Char × ℕ × List Char) :=
  let whole := text.takeWhile Char.isDigit
  match text.dropWhile Char.isDigit with
  | '.' :: rest =>
    let fraction := rest.takeWhile Char.isDigit
    if whole ++ fraction = [] then none
    else some (whole ++ fraction, fraction.length, rest.dropWhile Char.isDigit)
  | rest => if whole = [] then none else some (whole, 0, rest)

/-- A sign of an exponent, and what follows it. -/
def readSign : List Char → ℤ × List Char
  | '-' :: text => (-1, text)
  | '+' :: text => (1, text)
  | text => (1, text)

/-- The exponent, and the rest; a letter without digits behind it is not read. -/
def readExponent (text : List Char) : ℤ × List Char :=
  match text with
  | c :: text' =>
    let (sign, digits) := readSign text'
    if (c = 'e' ∨ c = 'E') ∧ digits.takeWhile Char.isDigit ≠ [] then
      (sign * decimalValue (digits.takeWhile Char.isDigit), digits.dropWhile Char.isDigit)
    else (0, text)
  | [] => (0, [])

/-- The decimal number at the front of a text, and the rest. -/
def readDecimal (text : List Char) : Option (ℚ × List Char) :=
  let (minus, unsigned) := readMinus text
  match readSignificand unsigned with
  | none => none
  | some (digits, fraction, rest) =>
    let (exponent, rest) := readExponent rest
    let magnitude : ℚ := decimalValue digits * 10 ^ (exponent - fraction)
    some (if minus then -magnitude else magnitude, rest)

/-- The number that a text writes as a whole. -/
def wholeDecimal (text : List Char) : Option ℚ :=
  match readDecimal text with
  | some (q, []) => some q
  | _ => none

/-- The double nearest to a number; nothing when the number is too large or, not
being zero, rounds to zero. -/
def toBinary64 (q : ℚ) : Option ℚ :=
  if 2 ^ 1024 ≤ |binary64.round q| ∨ (q ≠ 0 ∧ binary64.round q = 0) then none
  else some (binary64.round q)

/-- Whether a text begins with a word, in any case. -/
def beginsWith (word text : List Char) : Bool := (text.take word.length).map Char.toLower = word

/-- `std::from_chars` for a `double`: nothing on an error, else the number, unless
it is not a number. An infinity stands for any number beyond all doubles. -/
def fromChars (s : String) : Option (Option ℚ) :=
  let (minus, unsigned) := readMinus s.toList
  match readDecimal s.toList with
  | some (q, _) => (toBinary64 q).map some
  | none =>
    if beginsWith ['n', 'a', 'n'] unsigned then some none
    else if beginsWith ['i', 'n', 'f'] unsigned then
      some (some (if minus then -2 ^ 1024 else 2 ^ 1024))
    else none

/-- Integers up to `2^53` are doubles. -/
theorem binary64_round_intCast {k : ℤ} (hk : k.natAbs ≤ 2 ^ 53) : binary64.round (k : ℚ) = k :=
  round_intCast binary64 (by decide) hk

end HermesFlow.Numeral
