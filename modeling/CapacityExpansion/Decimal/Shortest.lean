import CapacityExpansion.Decimal.Binary

/-!
# The shortest decimal of a double

The reals which round to a positive double form an interval around it, its ends
included if the mantissa is even. The shortest decimal of the double is a point
of the coarsest decimal grid `10 ^ place` which meets that interval; since the
double lies in the interval too, one of its two neighbours on the grid is such
a point. Of two the nearer one is taken, and what happens on an exact tie is up
to the caller.

* `Grid.inside`: whether a multiple of the grid lies in the interval;
* `shortest`: the decimal, descending from a grid which is too coarse.
-/

namespace CapacityExpansion.Decimal

/-- The number `digits * 10 ^ place`. -/
structure Shortest where
  /-- The significant digits, as a number. -/
  digits : Nat
  /-- The place of the last digit. -/
  place : Int
  deriving DecidableEq, Repr

/-- Which neighbour a number halfway between two decimals goes to. -/
inductive Tie where
  /-- To the larger one. -/
  | up
  /-- To the one with an even last digit. -/
  | even
  deriving DecidableEq, Repr

/-- A positive double, the ends of its interval and the step of a decimal grid, as multiples of
    one unit small enough for all of them to be whole. -/
structure Grid where
  /-- The lower end of the interval. -/
  low : Nat
  /-- The double. -/
  value : Nat
  /-- The upper end of the interval. -/
  high : Nat
  /-- Whether the ends belong to the interval. -/
  closed : Bool
  /-- The step of the grid. -/
  step : Nat

/-- The grid `10 ^ place` beside the double `mantissa * 2 ^ exponent`.

    The interval reaches half a unit up, and half a unit down except below a power of two, where
    the doubles are twice as dense. -/
def Grid.ofDouble (mantissa : Nat) (exponent place : Int) : Grid :=
  let below := if mantissa = Nat.pow 2 storedBits ∧ exponent > leastExponent then 1 else 2
  let quarter := Nat.pow 2 (exponent - 2).toNat * Nat.pow 10 (-place).toNat
  { low := (4 * mantissa - below) * quarter
    value := 4 * mantissa * quarter
    high := (4 * mantissa + 2) * quarter
    closed := mantissa % 2 = 0
    step := Nat.pow 10 place.toNat * Nat.pow 2 (2 - exponent).toNat }

namespace Grid

variable (g : Grid)

/-- Whether `n` steps of the grid lie in the interval. -/
def inside (n : Nat) : Bool :=
  if g.closed then g.low ≤ n * g.step && n * g.step ≤ g.high
  else g.low < n * g.step && n * g.step < g.high

/-- The point of the grid nearest to the double among those in the interval, if there is one. -/
def nearestInside (tie : Tie) : Option Nat :=
  let below := g.value / g.step
  let above := below + 1
  let down := g.value - below * g.step
  let up := above * g.step - g.value
  match g.inside below, g.inside above with
  | false, false => none
  | true, false => some below
  | false, true => some above
  | true, true =>
    if down < up then some below
    else if up < down then some above
    else match tie with
      | .up => some above
      | .even => some (if below % 2 = 0 then below else above)

/-- The point taken lies in the interval. -/
theorem inside_of_nearestInside {tie : Tie} {n : Nat} (h : g.nearestInside tie = some n) :
    g.inside n = true := by
  unfold nearestInside at h
  split at h <;> grind

end Grid

/-- A grid coarser than the positive double `mantissa * 2 ^ exponent`, which is below
    `2 ^ (log2 mantissa + 1 + exponent)`. -/
def coarsePlace (mantissa : Nat) (exponent : Int) : Int :=
  ((mantissa.log2 : Int) + 1 + exponent) * 30103 / 100000 + 2

/-- The number of grids tried: seventeen digits always suffice, and the first grid is at most
    three places too coarse. -/
def gridsTried : Nat := 21

/-- The decimal on the first of the grids from `place` downwards which meets the interval. -/
def descend (mantissa : Nat) (exponent : Int) (tie : Tie) : (tries : Nat) → (place : Int) → Shortest
  | 0, place => let g := Grid.ofDouble mantissa exponent place; ⟨g.value / g.step, place⟩
  | tries + 1, place =>
    match (Grid.ofDouble mantissa exponent place).nearestInside tie with
    | some digits => ⟨digits, place⟩
    | none => descend mantissa exponent tie tries (place - 1)

/-- The shortest decimal which rounds to the positive double `mantissa * 2 ^ exponent`. -/
def shortest (mantissa : Nat) (exponent : Int) (tie : Tie) : Shortest :=
  descend mantissa exponent tie gridsTried (coarsePlace mantissa exponent)

example : shortest (2 ^ 52) (-52) .up = ⟨1, 0⟩ := by decide
example : shortest 1 (-1074) .up = ⟨5, -324⟩ := by decide +kernel

end CapacityExpansion.Decimal
