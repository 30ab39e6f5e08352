import QuantumScript.Number.Truncate

/-!
# Ranges of whole numbers

The whole numbers from a start, step by step, as long as they lie before an end. Both bounds and the
step are 64-bit whole numbers, and so is every number of the range: where the next one would not
fit, the range ends.
-/

namespace QuantumScript.Native

/-- The most numbers that a range may have. -/
def rangeLimit : Nat := 1000000

/-- Whether a number lies before the end of a range, in the direction of its step. -/
def isBefore (stop step i : Int) : Bool :=
  (0 < step && i < stop) || (step < 0 && stop < i)

/-- The number after another, if it has 64 bits. -/
def successor? (step i : Int) : Option Int :=
  let next := i + step
  if Number.least ≤ next && next ≤ Number.greatest then some next else none

/-- The numbers of a range from `next` on, after those of `taken`; none if there are more than
`room` of them. -/
def rangeFrom (stop step : Int) : Nat → Option Int → Array Int → Option (Array Int)
  | _, none, taken => some taken
  | 0, some i, taken => if isBefore stop step i then none else some taken
  | room + 1, some i, taken =>
    if isBefore stop step i then rangeFrom stop step room (successor? step i) (taken.push i)
    else some taken

/-- The numbers of a range; none if there are too many. -/
def range? (start stop step : Int) : Option (Array Int) :=
  rangeFrom stop step rangeLimit (some start) #[]

end QuantumScript.Native
