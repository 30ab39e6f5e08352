import QuantumScript.Number.Binary

/-!
# The length of a vector

The square root of a sum of two squares, computed in floating point with one correction of the
root. Lengths that are very large or very small are computed on a scaled vector, so that no square
overflows or vanishes.
-/

namespace QuantumScript.Number

/-- Two to a power, as a number; the power is within the range of normal numbers. -/
def powerOfTwo (power : Int) : Float :=
  Float.ofBits (UInt64.ofNat ((power + 1023).toNat * unit))

/-- The length of the vector `(a, b)` for `a ≥ b ≥ 0` of moderate size. The plain square root `h`
is off by the error of `h² - a² - b²`, which is computed from the small differences between the
three sides and then taken away. -/
def correctedLength (a b : Float) : Float :=
  let h := (a * a + b * b).sqrt
  let excess :=
    if h ≤ 2 * b then
      let d := h - b
      a * (2 * d - a) + (d - 2 * (a - b)) * d
    else
      let d := h - a
      2 * d * (a - 2 * b) + ((4 * d - b) * b + d * d)
  h - excess / (2 * h)

/-- The length of the vector `(a, b)` for `a ≥ b ≥ 0`, both finite. A side that is too short to
count is only added. -/
def orderedLength (a b : Float) : Float :=
  let scale := powerOfTwo (-600)
  let negligible := powerOfTwo (-54)
  if powerOfTwo 511 < a then
    if b ≤ a * negligible then a + b else correctedLength (a * scale) (b * scale) / scale
  else if b < powerOfTwo (-459) then
    if b / negligible ≤ a then a + b else correctedLength (a / scale) (b / scale) * scale
  else if b ≤ a * negligible then a + b
  else correctedLength a b

/-- The length of the vector `(x, y)`: infinite as soon as one side is, and NaN if a side is NaN. -/
def hypotenuse (x y : Float) : Float :=
  if x.isInf || y.isInf then 1 / 0
  else if x.isNaN || y.isNaN then 0 / 0
  else
    let a := x.abs
    let b := y.abs
    if a < b then orderedLength b a else orderedLength a b

end QuantumScript.Number
