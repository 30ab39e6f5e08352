import QuantumScript.Decimal.Layout

/-!
# Documents

The text that a creation file is lowered to is a document of nested arrays and objects, written with
an indent of two spaces. Numbers are written by their shortest decimals, and in scientific notation
where they are very large or very small.
-/

namespace QuantumScript

/-- A document. -/
inductive Json
  | null
  | bool (value : Bool)
  | integer (value : Int)
  | real (value : Float)
  | text (value : String)
  | array (items : List Json)
  | object (fields : List (String × Json))

namespace Json

/-! ## Texts and numbers -/

/-- Two lower case hexadecimal digits of a number below 256. -/
def hexPair (n : Nat) : List Char :=
  [Nat.digitChar (n / 16), Nat.digitChar (n % 16)]

/-- A character inside a text of a document. -/
def escapeChar (c : Char) : List Char :=
  if c = '"' then ['\\', '"']
  else if c = '\\' then ['\\', '\\']
  else if c = '\x08' then ['\\', 'b']
  else if c = '\x0c' then ['\\', 'f']
  else if c = '\n' then ['\\', 'n']
  else if c = '\r' then ['\\', 'r']
  else if c = '\t' then ['\\', 't']
  else if c.toNat < 0x20 then ['\\', 'u', '0', '0'] ++ hexPair c.toNat
  else [c]

/-- A text between double quotes. -/
def quote (s : String) : String :=
  String.ofList ('"' :: s.toList.flatMap escapeChar ++ ['"'])

/-- A decimal with its point after the first digit and a signed power of ten. -/
def scientific (d : Decimal) : String :=
  let power := d.magnitude
  let sign := if power < 0 then "-" else "+"
  let digits :=
    match (toString d.digits).toList with
    | first :: second :: rest => String.ofList (first :: '.' :: second :: rest)
    | short => String.ofList short
  digits ++ "e" ++ sign ++ toString power.natAbs

/-- A positive number: positional from `10 ^ -5` up to `10 ^ 16`, and then with a decimal point,
else scientific. -/
def positiveReal (b : Number.Binary) : String :=
  let d := Decimal.shortest .even b
  if -5 ≤ d.magnitude && d.magnitude ≤ 15 then
    if 0 ≤ d.exponent then d.positional ++ ".0" else d.positional
  else scientific d

/-- A number that is not written as an integer; one that is not finite has no form but `null`. -/
def realText (x : Float) : String :=
  if x.isFinite then
    let b := Number.Binary.ofFloat x
    let sign := if b.negative then "-" else ""
    if b.significand = 0 then sign ++ "0.0" else sign ++ positiveReal b
  else "null"

/-! ## Layout -/

/-- The indent at a depth of nesting. -/
def indent (depth : Nat) : String :=
  String.ofList (List.replicate (2 * depth) ' ')

mutual

/-- A document at a depth of nesting. -/
def render (depth : Nat) : Json → String
  | null => "null"
  | bool value => if value then "true" else "false"
  | integer value => toString value
  | real value => realText value
  | text value => quote value
  | array [] => "[]"
  | array (item :: items) =>
    "[\n" ++ renderItems (depth + 1) (item :: items) ++ "\n" ++ indent depth ++ "]"
  | object [] => "\x7b\x7d"
  | object (field :: fields) =>
    "\x7b\n" ++ renderFields (depth + 1) (field :: fields) ++ "\n" ++ indent depth ++ "\x7d"

/-- The items of an array, each on its own line. -/
def renderItems (depth : Nat) : List Json → String
  | [] => ""
  | [item] => indent depth ++ render depth item
  | item :: items => indent depth ++ render depth item ++ ",\n" ++ renderItems depth items

/-- The fields of an object, each on its own line. -/
def renderFields (depth : Nat) : List (String × Json) → String
  | [] => ""
  | [(key, value)] => indent depth ++ quote key ++ ": " ++ render depth value
  | (key, value) :: fields =>
    indent depth ++ quote key ++ ": " ++ render depth value ++ ",\n" ++ renderFields depth fields

end

end Json

end QuantumScript
