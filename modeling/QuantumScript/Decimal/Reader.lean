/-!
# Numbers from text

A decimal number is an optional sign, digits with at most one decimal point, and an optional power
of ten; the names of infinity and NaN are numbers too, in any letter case. The value read is the
number nearest to the decimal.
-/

namespace QuantumScript.Decimal

/-- The value of a string of decimal digits that follows the value `acc`. -/
def digitsValue (acc : Nat) (cs : List Char) : Nat :=
  cs.foldl (fun n c => 10 * n + (c.toNat - '0'.toNat)) acc

/-- The number nearest to `digits · 10 ^ power`. Powers far outside the range of numbers are cut
off first: there the nearest number is infinity or zero whatever the digits are. -/
def nearest (digits : Nat) (power : Int) : Float :=
  if digits = 0 then 0
  else
    let magnitude := power + (toString digits).length
    if 400 < magnitude then 1 / 0
    else if magnitude < -400 then 0
    else if 0 ≤ power then Float.ofScientific digits false power.toNat
    else Float.ofScientific digits true (-power).toNat

/-- Digits, then possibly a point and more digits: the two runs of digits and what follows them. -/
def splitMantissa (cs : List Char) : List Char × List Char × List Char :=
  let whole := cs.takeWhile Char.isDigit
  match cs.dropWhile Char.isDigit with
  | '.' :: rest => (whole, rest.takeWhile Char.isDigit, rest.dropWhile Char.isDigit)
  | rest => (whole, [], rest)

/-- The value of a sign and digits, all of the text. -/
def signedDigits? (cs : List Char) : Option Int :=
  let value? (digits : List Char) : Option Nat :=
    if digits.isEmpty || !digits.all Char.isDigit then none else some (digitsValue 0 digits)
  match cs with
  | '-' :: digits => (value? digits).map fun n => -Int.ofNat n
  | '+' :: digits => (value? digits).map Int.ofNat
  | digits => (value? digits).map Int.ofNat

/-- The power of ten that ends a decimal: nothing, or the letter `e` and a signed whole number. -/
def power? : List Char → Option Int
  | [] => some 0
  | c :: rest => if c = 'e' || c = 'E' then signedDigits? rest else none

/-- The number that a text without a sign spells. -/
def unsigned? (cs : List Char) : Option Float :=
  let name := String.ofList (cs.map Char.toLower)
  if name = "inf" || name = "infinity" then some (1 / 0)
  else if name = "nan" then some (0 / 0)
  else
    let (whole, fraction, rest) := splitMantissa cs
    if whole.isEmpty && fraction.isEmpty then none
    else
      (power? rest).map fun power =>
        nearest (digitsValue 0 (whole ++ fraction)) (power - fraction.length)

/-- The number that a text spells, if it spells one. -/
def read? (s : String) : Option Float :=
  match s.toList with
  | '-' :: cs => (unsigned? cs).map fun x => -x
  | '+' :: cs => unsigned? cs
  | cs => unsigned? cs

end QuantumScript.Decimal
