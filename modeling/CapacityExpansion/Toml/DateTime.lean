/-!
# Dates and times

A date, a time of day, or both, and then perhaps an offset from universal time.
Fractions of a second are kept to the nanosecond.

* `DateTime.ofChars?`: what a text stands for, if it is a date that exists or a
  time of day;
* `DateTime.text`: the one way to write it.
-/

namespace CapacityExpansion.Toml

/-- A day. -/
structure Date where
  /-- The year, up to 9999. -/
  year : Nat
  /-- The month, from 1. -/
  month : Nat
  /-- The day of the month, from 1. -/
  day : Nat
  deriving DecidableEq, Repr

/-- A time of day. -/
structure Time where
  /-- The hour. -/
  hour : Nat
  /-- The minute. -/
  minute : Nat
  /-- The second; a leap second is 60. -/
  second : Nat
  /-- The nanosecond. -/
  nanosecond : Nat
  deriving DecidableEq, Repr

/-- An offset from universal time. -/
inductive Offset where
  /-- None. -/
  | universal
  /-- A number of minutes. -/
  | minutes (count : Int)
  deriving DecidableEq, Repr

/-- A date, a time of day, or both. -/
structure DateTime where
  /-- The date. -/
  date : Option Date
  /-- The time of day. -/
  time : Option Time
  /-- The offset from universal time. -/
  offset : Option Offset
  deriving DecidableEq, Repr

/-! ## Reading -/

/-- The number with two digits. -/
def twoDigits? (a b : Char) : Option Nat :=
  if a.isDigit && b.isDigit then some (10 * (a.toNat - '0'.toNat) + (b.toNat - '0'.toNat)) else none

/-- The number with two digits, if it is in a range. -/
def twoDigitsIn? (least greatest : Nat) (a b : Char) : Option Nat :=
  (twoDigits? a b).filter fun n => least ≤ n && n ≤ greatest

/-- Whether a year has a leap day. -/
def isLeapYear (year : Nat) : Bool := year % 4 = 0 && (year % 100 ≠ 0 || year % 400 = 0)

/-- The number of days of a month. -/
def daysOfMonth (year month : Nat) : Nat :=
  if month = 2 then if isLeapYear year then 29 else 28
  else if month ∈ [4, 6, 9, 11] then 30
  else 31

/-- The date at the start of a text, and what follows it. -/
def readDate : List Char → Option (Date × List Char)
  | y₁ :: y₂ :: y₃ :: y₄ :: '-' :: m₁ :: m₂ :: '-' :: d₁ :: d₂ :: rest => do
    let century ← twoDigits? y₁ y₂
    let year := 100 * century + (← twoDigits? y₃ y₄)
    let month ← twoDigitsIn? 1 12 m₁ m₂
    let day ← twoDigitsIn? 1 (daysOfMonth year month) d₁ d₂
    return ({ year, month, day }, rest)
  | _ => none

/-- The nanoseconds which the digits after the point stand for. -/
def nanoseconds (digits : List Char) : Nat :=
  let kept := (digits ++ List.replicate 9 '0').take 9
  kept.foldl (fun n c => 10 * n + (c.toNat - '0'.toNat)) 0

/-- The time of day at the start of a text, and what follows it. -/
def readTime : List Char → Option (Time × List Char)
  | h₁ :: h₂ :: ':' :: m₁ :: m₂ :: ':' :: s₁ :: s₂ :: rest => do
    let hour ← twoDigitsIn? 0 23 h₁ h₂
    let minute ← twoDigitsIn? 0 59 m₁ m₂
    let second ← twoDigitsIn? 0 60 s₁ s₂
    match rest with
    | '.' :: rest =>
      let digits := rest.takeWhile Char.isDigit
      if digits.isEmpty then none
      else
        return ({ hour, minute, second, nanosecond := nanoseconds digits }, rest.dropWhile Char.isDigit)
    | rest => return ({ hour, minute, second, nanosecond := 0 }, rest)
  | _ => none

/-- The offset a text stands for. -/
def readOffset : List Char → Option Offset
  | ['Z'] | ['z'] => some .universal
  | [sign, h₁, h₂, ':', m₁, m₂] => do
    let hour ← twoDigitsIn? 0 23 h₁ h₂
    let minute ← twoDigitsIn? 0 59 m₁ m₂
    let count : Int := 60 * hour + minute
    if sign = '+' then return .minutes count
    else if sign = '-' then return .minutes (-count)
    else none
  | _ => none

namespace DateTime

/-- What a text stands for, if it is a date, a time of day, or both with or without an offset. -/
def ofChars? (text : List Char) : Option DateTime :=
  match readDate text with
  | some (date, []) => some { date := some date, time := none, offset := none }
  | some (date, mark :: rest) => do
    guard (mark = 'T' ∨ mark = 't' ∨ mark = ' ')
    let (time, rest) ← readTime rest
    let offset ← if rest.isEmpty then pure none else (readOffset rest).map some
    return { date := some date, time := some time, offset }
  | none =>
    match readTime text with
    | some (time, []) => some { date := none, time := some time, offset := none }
    | _ => none

/-! ## Writing -/

/-- A number with leading zeros. -/
def padded (width n : Nat) : String :=
  let digits := Nat.toDigits 10 n
  String.ofList (List.replicate (width - digits.length) '0' ++ digits)

/-- The text of a day. -/
def dateText (d : Date) : String := padded 4 d.year ++ "-" ++ padded 2 d.month ++ "-" ++ padded 2 d.day

/-- The fraction of a second, without zeros at its end. -/
def fractionText (nanosecond : Nat) : String :=
  if nanosecond = 0 then ""
  else
    let digits := (padded 9 nanosecond).toList
    "." ++ String.ofList (digits.reverse.dropWhile (· == '0')).reverse

/-- The text of a time of day. -/
def timeText (t : Time) : String :=
  padded 2 t.hour ++ ":" ++ padded 2 t.minute ++ ":" ++ padded 2 t.second ++ fractionText t.nanosecond

/-- The text of an offset. -/
def offsetText : Offset → String
  | .universal => "Z"
  | .minutes count =>
    let size := count.natAbs
    (if count < 0 then "-" else "+") ++ padded 2 (size / 60) ++ ":" ++ padded 2 (size % 60)

/-- The text of a date, a time of day, or both. -/
def text (d : DateTime) : String :=
  d.date.elim "" dateText ++ (if d.date.isSome && d.time.isSome then "T" else "") ++
    d.time.elim "" timeText ++ d.offset.elim "" offsetText

end DateTime

end CapacityExpansion.Toml
