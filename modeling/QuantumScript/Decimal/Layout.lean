import QuantumScript.Decimal.Shortest
import QuantumScript.Number.Truncate

/-!
# Numbers in text

How a decimal is laid out with a decimal point and no exponent, and the two ways the language
writes a number: `plain`, always positional, and `display`, which also drops the sign of zero.
-/

namespace QuantumScript

namespace Decimal

/-- So many zeros. -/
def zeros (count : Nat) : String :=
  String.ofList (List.replicate count '0')

/-- A decimal without an exponent: a decimal point stands where the digits pass below one. -/
def positional (d : Decimal) : String :=
  let text := toString d.digits
  if 0 ≤ d.exponent then text ++ zeros d.exponent.toNat
  else
    let places := (-d.exponent).toNat
    let chars := text.toList
    if places < chars.length then
      String.ofList (chars.take (chars.length - places)) ++ "." ++
        String.ofList (chars.drop (chars.length - places))
    else "0." ++ zeros (places - chars.length) ++ text

/-- The power of ten of the first digit. -/
def magnitude (d : Decimal) : Int :=
  d.exponent + (toString d.digits).length - 1

end Decimal

namespace Number

/-- A finite number by the shortest decimal, positional; a zero keeps its sign. -/
def plainFinite (x : Float) : String :=
  let b := Binary.ofFloat x
  let sign := if b.negative then "-" else ""
  if b.significand = 0 then sign ++ "0" else sign ++ (Decimal.shortest .up b).positional

/-- A number by the fewest digits that read back as it, never with an exponent. -/
def plain (x : Float) : String :=
  if x.isNaN then "NaN"
  else if x.isInf then if x < 0 then "-inf" else "inf"
  else plainFinite x

/-- The magnitude below which whole numbers are written as integers. -/
def wholeLimit : Float := 1e15

/-- Whether a number is written as an integer. -/
def isShortWhole (x : Float) : Bool :=
  isWhole x && x.abs < wholeLimit

/-- The text of a number value: a short whole number as an integer, any other by the fewest
digits. -/
def display (x : Float) : String :=
  if isShortWhole x then toString (truncate x) else plain x

end Number

end QuantumScript
