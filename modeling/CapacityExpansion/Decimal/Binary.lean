/-!
# Doubles as binary fractions

A double is nothing, an infinity, or a sign and a whole number of units
`2 ^ exponent`. Writing a number starts from this view of it and reading one
ends in it, so that both are exact computations on natural numbers.

* `Binary.ofFloat`: the view of a double;
* `nearest`: the double nearest to a positive fraction, a tie going to the even
  mantissa. The bits of the doubles from zero upwards are consecutive numbers,
  so a mantissa which rounds up to the next power of two needs no special case.
-/

namespace CapacityExpansion.Decimal

/-- What a double stands for. -/
inductive Binary where
  /-- Not a number. -/
  | nan
  /-- An infinity. -/
  | infinite (negative : Bool)
  /-- The number `± mantissa * 2 ^ exponent`. -/
  | finite (negative : Bool) (mantissa : Nat) (exponent : Int)
  deriving DecidableEq, Repr

/-- The number of bits of a mantissa which are stored. -/
def storedBits : Nat := 52

/-- The exponent of the smallest doubles. -/
def leastExponent : Int := -1074

/-- The bits of positive infinity. -/
def infinityBits : Nat := 0x7FF0000000000000

/-- What a double stands for, read off its bits. -/
def Binary.ofFloat (x : Float) : Binary :=
  let bits := x.toBits.toNat
  let negative := decide (bits ≥ Nat.pow 2 63)
  let magnitude := bits % Nat.pow 2 63
  let fraction := magnitude % Nat.pow 2 storedBits
  let scale : Nat := magnitude / Nat.pow 2 storedBits
  if magnitude > infinityBits then .nan
  else if magnitude = infinityBits then .infinite negative
  else if scale = 0 then .finite negative fraction leastExponent
  else .finite negative (fraction + Nat.pow 2 storedBits) (leastExponent + (scale : Int) - 1)

/-- The fraction `numerator / denominator` in units of `2 ^ exponent`: the whole units, and
    twice the rest beside the unit, which tell on which side of a half it lies. -/
def unitsOf (numerator denominator : Nat) (exponent : Int) : Nat × Nat × Nat :=
  let n := numerator * Nat.pow 2 (-exponent).toNat
  let d := denominator * Nat.pow 2 exponent.toNat
  (n / d, 2 * (n % d), d)

/-- The exponent at which a positive fraction has a mantissa of full length, or the least exponent
    if it is too small for one. -/
def exponentOf (numerator denominator : Nat) : Int :=
  let guess : Int := (numerator.log2 : Int) - denominator.log2 - storedBits
  let (units, _) := unitsOf numerator denominator guess
  max leastExponent (if units < Nat.pow 2 storedBits then guess - 1 else guess)

/-- The bits of the double nearest to a positive fraction, a tie going to the even mantissa. -/
def nearestBits (numerator denominator : Nat) : Nat :=
  let exponent := exponentOf numerator denominator
  let (units, twice, unit) := unitsOf numerator denominator exponent
  let rounded := if twice > unit ∨ (twice = unit ∧ units % 2 = 1) then units + 1 else units
  min infinityBits ((exponent - leastExponent).toNat * Nat.pow 2 storedBits + rounded)

/-- The double nearest to a fraction with a sign; a zero keeps its sign. -/
def nearest (negative : Bool) (numerator denominator : Nat) : Float :=
  let bits := if numerator = 0 then 0 else nearestBits numerator denominator
  Float.ofBits (.ofNat (if negative then Nat.pow 2 63 + bits else bits))

/-- No double reads as a number beyond the infinities. -/
theorem nearestBits_le (numerator denominator : Nat) :
    nearestBits numerator denominator ≤ infinityBits :=
  Nat.min_le_left _ _

example : Binary.ofFloat 1 = .finite false (2 ^ 52) (-52) := by decide
example : nearestBits 1 1 = 0x3FF0000000000000 := by decide
example : nearestBits 1 10 = (0.1 : Float).toBits.toNat := by decide

end CapacityExpansion.Decimal
