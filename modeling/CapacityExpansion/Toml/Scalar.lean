import CapacityExpansion.Decimal.Reading
import CapacityExpansion.Toml.Value

/-!
# Scalars of a configuration file

Truth values, numbers, dates and times are words without blanks, except that a
blank may stand between a date and a time of day. Single underscores may
separate the digits of a number; a decimal number has no leading zeros.

* `readScalar`: the scalar at the start of a text.
-/

namespace CapacityExpansion.Toml

/-- The digits of a number without the underscores between them, if that is all there is. -/
def digitsOf? (isDigit : Char → Bool) : List Char → Option (List Char)
  | [] => none
  | [c] => if isDigit c then some [c] else none
  | c :: '_' :: rest => if isDigit c then (digitsOf? isDigit rest).map (c :: ·) else none
  | c :: rest => if isDigit c then (digitsOf? isDigit rest).map (c :: ·) else none

/-- A number without its sign, and whether it is negative. -/
def splitSign : List Char → Bool × List Char
  | '-' :: rest => (true, rest)
  | '+' :: rest => (false, rest)
  | text => (false, text)

/-- The digits of a decimal integer, which has no leading zeros. -/
def wholeDigits? (text : List Char) : Option (List Char) := do
  let digits ← digitsOf? Char.isDigit text
  guard (digits.head? ≠ some '0' ∨ text.length = 1)
  return digits

/-- The number with some digits. -/
def numberOf (base : Nat) (digits : List Char) : Nat :=
  digits.foldl (fun n c => base * n + (Decimal.digitValue? base c).getD 0) 0

/-- An integer, if it is not too large. -/
def boundedInteger? (n : Int) : Option Value :=
  if -(integerBound : Int) ≤ n ∧ n < integerBound then some (.integer n) else none

/-- An integer in a base other than ten. -/
def basedInteger? (base : Nat) (text : List Char) : Option Value := do
  let digits ← digitsOf? (fun c => (Decimal.digitValue? base c).isSome) text
  boundedInteger? (numberOf base digits)

/-- The integer a text stands for. -/
def integer? : List Char → Option Value
  | '0' :: 'x' :: rest => basedInteger? 16 rest
  | '0' :: 'o' :: rest => basedInteger? 8 rest
  | '0' :: 'b' :: rest => basedInteger? 2 rest
  | text => do
    let (negative, magnitude) := splitSign text
    let size : Int := numberOf 10 (← wholeDigits? magnitude)
    boundedInteger? (if negative then -size else size)

/-- Whether a character starts an exponent. -/
def isExponentMark (c : Char) : Bool := c == 'e' || c == 'E'

/-- An exponent with its sign. -/
def exponent? (text : List Char) : Option Int := do
  let (negative, magnitude) := splitSign text
  let size : Int := numberOf 10 (← digitsOf? Char.isDigit magnitude)
  return if negative then -size else size

/-- The number with the digits around the point and an exponent, if it is not too large. -/
def decimal? (negative : Bool) (whole fraction : List Char) (exponent : Int) : Option Value :=
  let x := Decimal.ofDecimal negative (numberOf 10 (whole ++ fraction)) (exponent - fraction.length)
  if x.isInf && !negative then none else some (.real x)

/-- The real number a text stands for. -/
def real? (text : List Char) : Option Value := do
  let (negative, magnitude) := splitSign text
  if magnitude = ['i', 'n', 'f'] then return .real (if negative then -1.0 / 0.0 else 1.0 / 0.0)
  if magnitude = ['n', 'a', 'n'] then return .real (0.0 / 0.0)
  let isWhole (c : Char) : Bool := c != '.' && !isExponentMark c
  let whole ← wholeDigits? (magnitude.takeWhile isWhole)
  match magnitude.dropWhile isWhole with
  | '.' :: rest =>
    let fraction ← digitsOf? Char.isDigit (rest.takeWhile fun c => !isExponentMark c)
    match rest.dropWhile fun c => !isExponentMark c with
    | [] => decimal? negative whole fraction 0
    | _ :: rest => decimal? negative whole fraction (← exponent? rest)
  | c :: rest => if isExponentMark c then decimal? negative whole [] (← exponent? rest) else none
  | [] => none

/-- The value of a word. -/
def scalar? (word : List Char) : Option Value :=
  if word = ['t', 'r', 'u', 'e'] then some (.boolean true)
  else if word = ['f', 'a', 'l', 's', 'e'] then some (.boolean false)
  else ((DateTime.ofChars? word).map Value.dateTime).or ((integer? word).or (real? word))

/-- Whether a character may stand in a word. -/
def isWordChar (c : Char) : Bool :=
  c.isAlphanum || c == '_' || c == '-' || c == '+' || c == '.' || c == ':'

/-- Whether a time of day follows after a date and a blank. -/
def timeFollows (word rest : List Char) : Bool :=
  match readDate word, rest with
  | some (_, []), ' ' :: a :: b :: ':' :: _ => a.isDigit && b.isDigit
  | _, _ => false

/-- The scalar at the start of a text, and what follows it. -/
def readScalar (text : List Char) : Option (Value × List Char) := do
  let word := text.takeWhile isWordChar
  let rest := text.dropWhile isWordChar
  if timeFollows word rest then
    let time := (rest.drop 1).takeWhile isWordChar
    let after := (rest.drop 1).dropWhile isWordChar
    return (← scalar? (word ++ ' ' :: time), after)
  else return (← scalar? word, rest)

end CapacityExpansion.Toml
