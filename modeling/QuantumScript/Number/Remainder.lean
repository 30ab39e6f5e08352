import QuantumScript.Number.Binary

/-!
# Remainders

The remainder of a division whose quotient is cut toward zero. It is exact: over a common power of
two both numbers are whole, and so is the remainder.
-/

namespace QuantumScript.Number

/-- The remainder of finite `x` by finite `y`, which is not zero; it takes the sign of `x`. -/
def Binary.remainder (x y : Binary) : Binary :=
  let common := min x.exponent y.exponent
  let dividend := x.significand * twoTo (x.exponent - common).toNat
  let divisor := y.significand * twoTo (y.exponent - common).toNat
  { negative := x.negative, significand := dividend % divisor, exponent := common }

/-- The remainder of `x` by `y`. Nothing remains defined of an infinite dividend or a zero divisor,
and an infinite divisor leaves the dividend as it is. -/
def remainder (x y : Float) : Float :=
  if x.isNaN || y.isNaN || x.isInf || y == 0 then 0 / 0
  else if y.isInf then x
  else ((Binary.ofFloat x).remainder (Binary.ofFloat y)).toFloat

end QuantumScript.Number
