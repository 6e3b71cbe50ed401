import CapacityExpansion.Decimal.Binary

/-!
# Reading numbers

Integers are read within a range, digit by digit from the left; the first digit
which is wrong or leaves the range decides what is reported. Real numbers are
decimals with an optional exponent, or the names of the infinities and of the
value which is not a number, in any case of letters; they are rounded to the
nearest double once, from the exact decimal.

* `IntegerRange.read`: an integer of a range, with a sign only where the range
  has room for one;
* `readReal`: a double.
-/

namespace CapacityExpansion.Decimal

/-! ## Integers -/

/-- A range of integers, both ends included. -/
structure IntegerRange where
  /-- The least integer. -/
  least : Int
  /-- The greatest integer. -/
  greatest : Int
  deriving DecidableEq, Repr

/-- The range of identifiers: 32 bits without a sign. -/
def identifiers : IntegerRange := ⟨0, 4294967295⟩

/-- The range of linked indices: 32 bits with a sign. -/
def linkedIndices : IntegerRange := ⟨-2147483648, 2147483647⟩

/-- Why a text is not an integer of a range. -/
inductive IntegerProblem where
  /-- There is no text. -/
  | empty
  /-- A character is not a digit, or there are no digits. -/
  | invalidDigit
  /-- The number is above the range. -/
  | tooLarge
  /-- The number is below the range. -/
  | tooSmall
  deriving DecidableEq, Repr

/-- The message of a problem with an integer. -/
def IntegerProblem.message : IntegerProblem → String
  | .empty => "cannot parse integer from empty string"
  | .invalidDigit => "invalid digit found in string"
  | .tooLarge => "number too large to fit in target type"
  | .tooSmall => "number too small to fit in target type"

/-- The value of a character as a digit of a base up to sixteen. -/
def digitValue? (base : Nat) (c : Char) : Option Nat :=
  let value? :=
    if '0' ≤ c ∧ c ≤ '9' then some (c.toNat - '0'.toNat)
    else if 'a' ≤ c ∧ c ≤ 'f' then some (c.toNat - 'a'.toNat + 10)
    else if 'A' ≤ c ∧ c ≤ 'F' then some (c.toNat - 'A'.toNat + 10)
    else none
  value?.filter (· < base)

namespace IntegerRange

variable (range : IntegerRange)

/-- Whether the range has room for a minus sign. -/
def signed : Bool := decide (range.least < 0)

/-- The integer with one more digit, going away from zero. -/
def extend (base : Nat) (negative : Bool) (soFar : Int) (digit : Nat) : Except IntegerProblem Int :=
  let next := if negative then soFar * base - digit else soFar * base + digit
  if range.greatest < next then .error .tooLarge
  else if next < range.least then .error .tooSmall
  else .ok next

/-- The integer with the digits given after those read so far, or the first problem met. -/
def readDigits (base : Nat) (negative : Bool) : (soFar : Int) → List Char → Except IntegerProblem Int
  | soFar, [] => .ok soFar
  | soFar, c :: rest =>
    match digitValue? base c with
    | none => .error .invalidDigit
    | some digit =>
      match range.extend base negative soFar digit with
      | .error problem => .error problem
      | .ok next => readDigits base negative next rest

/-- The integer written in a base, with an optional sign. -/
def readInBase (base : Nat) : List Char → Except IntegerProblem Int
  | [] => .error .empty
  | ['+'] => .error .invalidDigit
  | ['-'] => .error .invalidDigit
  | '+' :: digits => range.readDigits base false 0 digits
  | '-' :: digits =>
    if range.signed then range.readDigits base true 0 digits else .error .invalidDigit
  | digits => range.readDigits base false 0 digits

/-- The integer of a cell: decimal, or hexadecimal after `0x`. -/
def read (text : String) : Except IntegerProblem Int :=
  match text.toList with
  | '0' :: 'x' :: digits => range.readInBase 16 digits
  | digits => range.readInBase 10 digits

variable {range}

theorem mem_of_extend {base digit : Nat} {negative : Bool} {soFar n : Int}
    (h : range.extend base negative soFar digit = .ok n) : range.least ≤ n ∧ n ≤ range.greatest := by
  unfold extend at h
  generalize (if negative then soFar * base - digit else soFar * base + digit) = next at h
  dsimp only at h
  split at h
  · cases h
  · split at h
    · cases h
    · cases h; omega

/-- An integer which has been read is one of the range. -/
theorem mem_of_readDigits {base : Nat} {negative : Bool} {soFar n : Int} {digits : List Char}
    (hs : range.least ≤ soFar ∧ soFar ≤ range.greatest)
    (h : range.readDigits base negative soFar digits = .ok n) :
    range.least ≤ n ∧ n ≤ range.greatest := by
  induction digits generalizing soFar with
  | nil => cases h; exact hs
  | cons c rest ih =>
    rw [readDigits] at h
    split at h
    · cases h
    · split at h
      · cases h
      · next he => exact ih (mem_of_extend he) h

end IntegerRange

/-! ## Real numbers -/

/-- Why a text is not a real number. -/
inductive RealProblem where
  /-- There is no text. -/
  | empty
  /-- The text is not a number. -/
  | invalid
  deriving DecidableEq, Repr

/-- The message of a problem with a real number. -/
def RealProblem.message : RealProblem → String
  | .empty => "cannot parse float from empty string"
  | .invalid => "invalid float literal"

/-- The number written by decimal digits. -/
def ofDigits (digits : List Char) : Nat :=
  digits.foldl (fun n c => 10 * n + (c.toNat - '0'.toNat)) 0

/-- The double nearest to `± digits * 10 ^ exponent`.

    Beyond 310 digits every number is infinite, and before 330 zeros every number is zero, so the
    powers computed stay small. -/
def ofDecimal (negative : Bool) (digits : Nat) (exponent : Int) : Float :=
  let magnitude : Int := (Nat.toDigits 10 digits).length + exponent
  if digits = 0 ∨ magnitude < -330 then nearest negative 0 1
  else if magnitude > 310 then nearest negative (Nat.pow 10 310) 1
  else nearest negative (digits * Nat.pow 10 exponent.toNat) (Nat.pow 10 (-exponent).toNat)

/-- The parts of an unsigned decimal: its digits as a number and its exponent. -/
structure DecimalParts where
  /-- The digits before and after the point, as one number. -/
  digits : Nat
  /-- The exponent of the last digit. -/
  exponent : Int
  deriving DecidableEq, Repr

/-- The exponent after the letter `e`, with an optional sign. -/
def readExponent (text : List Char) : Option Int :=
  let (negative, digits) := match text with
    | '-' :: rest => (true, rest)
    | '+' :: rest => (false, rest)
    | rest => (false, rest)
  if digits.isEmpty || !digits.all Char.isDigit then none
  else some (if negative then -(ofDigits digits : Int) else ofDigits digits)

/-- An unsigned decimal: digits with at most one point and at least one digit, then optionally an
    exponent. -/
def readDecimal (text : List Char) : Option DecimalParts :=
  let whole := text.takeWhile Char.isDigit
  let (fraction, rest) := match text.dropWhile Char.isDigit with
    | '.' :: after => (after.takeWhile Char.isDigit, after.dropWhile Char.isDigit)
    | after => ([], after)
  let digits := ofDigits (whole ++ fraction)
  if whole.isEmpty && fraction.isEmpty then none
  else match rest with
    | [] => some ⟨digits, -fraction.length⟩
    | c :: tail =>
      if c = 'e' ∨ c = 'E' then
        (readExponent tail).map fun exponent => ⟨digits, exponent - fraction.length⟩
      else none

/-- A double with its sign split off. -/
def readMagnitude (negative : Bool) (text : List Char) : Option Float :=
  match readDecimal text with
  | some parts => some (ofDecimal negative parts.digits parts.exponent)
  | none =>
    let name := String.ofList (text.map Char.toLower)
    if name = "inf" ∨ name = "infinity" then some (nearest negative (Nat.pow 10 310) 1)
    else if name = "nan" then some (0 / 0)
    else none

/-- The double written by a text. -/
def readReal (text : String) : Except RealProblem Float :=
  let read? := match text.toList with
    | [] => none
    | '-' :: rest => readMagnitude true rest
    | '+' :: rest => readMagnitude false rest
    | rest => readMagnitude false rest
  match read? with
  | some x => .ok x
  | none => .error (if text.isEmpty then .empty else .invalid)

end CapacityExpansion.Decimal
