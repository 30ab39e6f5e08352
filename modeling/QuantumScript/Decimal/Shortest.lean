import QuantumScript.Number.Binary

/-!
# The shortest decimal of a number

A number stands for every real that rounds to it. Its shortest decimal is the point of the coarsest
decimal grid that meets this interval; of two such points the one nearer to the number is taken.
-/

namespace QuantumScript

/-- The value `digits · 10 ^ exponent`. -/
structure Decimal where
  /-- The significant digits, as a whole number. -/
  digits : Nat
  /-- The power of ten of the last digit. -/
  exponent : Int

namespace Decimal

/-- Ten to a whole power. -/
def tenTo (power : Nat) : Nat := Nat.pow 10 power

/-- Which of two equally near grid points is taken. -/
inductive Tie
  /-- The larger one. -/
  | up
  /-- The one whose last digit is even. -/
  | even

/-- The reals that round to a positive number, with the number itself, all in the same small unit:
a real `x` rounds to the number when `low ≤ x ≤ high`, the ends counted only if `closed`. -/
structure Interval where
  /-- The lower end. -/
  low : Nat
  /-- The number. -/
  middle : Nat
  /-- The upper end. -/
  high : Nat
  /-- Whether the ends round to the number too. -/
  closed : Bool

/-- The reals that round to `significand · 2 ^ exponent`, in units of `2 ^ (exponent - 2)`. The
neighbour below a power of two is nearer than the one above, unless the numbers are already at
their finest there. -/
def Interval.around (significand : Nat) (exponent : Int) : Interval :=
  let narrow := significand = Number.unit ∧ -1074 < exponent
  { low := if narrow then 4 * significand - 1 else 4 * significand - 2
    middle := 4 * significand
    high := 4 * significand + 2
    closed := significand % 2 = 0 }

/-- Whether an interval holds a point given in the unit of the interval. -/
def Interval.holds (i : Interval) (point : Nat) : Bool :=
  if i.closed then i.low ≤ point && point ≤ i.high else i.low < point && point < i.high

/-- An interval in a unit that is `factor` times smaller. -/
def Interval.refine (i : Interval) (factor : Nat) : Interval :=
  { i with low := i.low * factor, middle := i.middle * factor, high := i.high * factor }

/-- The multiple of `step` that lies in the interval and is nearest to its middle, divided by
`step`. -/
def Interval.gridPoint? (tie : Tie) (i : Interval) (step : Nat) : Option Nat :=
  let below := i.middle / step
  let above := below + 1
  match i.holds (below * step), i.holds (above * step) with
  | false, false => none
  | true, false => some below
  | false, true => some above
  | true, true =>
    let down := i.middle - below * step
    let up := above * step - i.middle
    if down < up then some below
    else if up < down then some above
    else
      match tie with
      | .up => some above
      | .even => some (if below % 2 = 0 then below else above)

/-- The point of the grid of multiples of `10 ^ power` that stands for the number whose interval, in
units of `2 ^ unit`, is given. -/
def onGrid? (tie : Tie) (i : Interval) (unit power : Int) : Option Nat :=
  let scaled := i.refine (Number.twoTo unit.toNat * tenTo (-power).toNat)
  scaled.gridPoint? tie (Number.twoTo (-unit).toNat * tenTo power.toNat)

/-- The first grid, of `count` ever finer ones from `10 ^ power` down, that has a point in the
interval. -/
def coarsest (tie : Tie) (i : Interval) (unit : Int) : Nat → Int → Decimal
  | 0, power => ⟨0, power⟩
  | count + 1, power =>
    match onGrid? tie i unit power with
    | some digits => ⟨digits, power⟩
    | none => coarsest tie i unit count (power - 1)

/-- The shortest decimal of a positive finite number. The search starts at a power of ten above the
number, and twenty grids reach past the seventeen digits that tell any two numbers apart. -/
def shortest (tie : Tie) (b : Number.Binary) : Decimal :=
  let magnitude : Int := b.significand.log2 + b.exponent + 1
  let start := magnitude * 30103 / 100000 + 1
  coarsest tie (Interval.around b.significand b.exponent) (b.exponent - 2) 22 start

end Decimal

end QuantumScript
