/-!
# Finite numbers as binary fractions

A finite number is a sign, a whole significand and a power of two. Reading a number this way makes
the questions about it exact: whether it is whole, what its whole part is, and what remains of it
after a division.
-/

namespace QuantumScript.Number

/-- Two to a whole power. -/
def twoTo (power : Nat) : Nat := Nat.pow 2 power

/-- The number of fractions at one exponent, two to the 52nd power. It is also the weight of the
digit before the point of a number that is not subnormal. -/
def unit : Nat := twoTo 52

/-- The value `± significand · 2 ^ exponent`. -/
structure Binary where
  /-- Whether the sign is minus. -/
  negative : Bool
  /-- The whole factor, below `2 ^ 53` for a number that was read from a `Float`. -/
  significand : Nat
  /-- The power of two. -/
  exponent : Int

namespace Binary

/-- A finite number by its parts. An infinity or NaN has no such form, and what this gives for it
has no meaning. -/
def ofFloat (x : Float) : Binary :=
  let bits := x.toBits.toNat
  let fraction := bits % unit
  let field := bits / unit % twoTo 11
  { negative := twoTo 63 ≤ bits
    significand := if field = 0 then fraction else fraction + unit
    exponent := (if field = 0 then 1 else Int.ofNat field) - 1075 }

/-- The number with the given parts, for a significand below `2 ^ 53` and an exponent from `-1074`
up, when the number is small enough to be finite. -/
def toFloat (b : Binary) : Float :=
  let sign := if b.negative then twoTo 63 else 0
  if b.significand = 0 then Float.ofBits (UInt64.ofNat sign)
  else
    let lift := min (52 - b.significand.log2) (b.exponent + 1074).toNat
    let significand := b.significand * twoTo lift
    let field := if significand < unit then 0 else (b.exponent - lift + 1075).toNat
    Float.ofBits (UInt64.ofNat (sign + field * unit + significand % unit))

/-- The magnitude cut down to a whole number. -/
def wholePart (b : Binary) : Nat :=
  if 0 ≤ b.exponent then b.significand * twoTo b.exponent.toNat
  else b.significand / twoTo (-b.exponent).toNat

/-- Whether the number is whole. -/
def isWhole (b : Binary) : Bool :=
  0 ≤ b.exponent || b.significand % twoTo (-b.exponent).toNat = 0

end Binary

/-- Whether a number is finite and whole. -/
def isWhole (x : Float) : Bool :=
  x.isFinite && (Binary.ofFloat x).isWhole

end QuantumScript.Number
