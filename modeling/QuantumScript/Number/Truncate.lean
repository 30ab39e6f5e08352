import QuantumScript.Number.Binary

/-!
# Whole numbers from numbers

Positions, range bounds and counts are numbers cut toward zero to a whole number. What does not fit
in 64 bits, with a sign or as a count without one, becomes the nearest whole number that does, and
NaN becomes zero.
-/

namespace QuantumScript.Number

/-- The smallest whole number of 64 bits. -/
def least : Int := -9223372036854775808

/-- The largest whole number of 64 bits. -/
def greatest : Int := 9223372036854775807

/-- A whole number moved into the 64-bit range if it lies outside. -/
def saturate (i : Int) : Int :=
  max least (min greatest i)

/-- A number cut toward zero, within the 64-bit range; zero for NaN. -/
def truncate (x : Float) : Int :=
  if x.isNaN then 0
  else if x.isInf then if x < 0 then least else greatest
  else
    let b := Binary.ofFloat x
    saturate (if b.negative then -Int.ofNat b.wholePart else Int.ofNat b.wholePart)

/-- The largest count of 64 bits. -/
def greatestCount : Nat := 18446744073709551615

/-- A number cut toward zero, as a count of 64 bits; zero for NaN and for what lies below zero. -/
def truncateCount (x : Float) : Nat :=
  if x.isNaN then 0
  else if x.isInf then if x < 0 then 0 else greatestCount
  else
    let b := Binary.ofFloat x
    if b.negative then 0 else min greatestCount b.wholePart

/-- The number nearest to a whole number of at most 64 bits. -/
def ofInt (i : Int) : Float :=
  if i < 0 then -i.natAbs.toUInt64.toFloat else i.natAbs.toUInt64.toFloat

/-- A count of things as a number. -/
def ofCount (n : Nat) : Float :=
  n.toUInt64.toFloat

end QuantumScript.Number
