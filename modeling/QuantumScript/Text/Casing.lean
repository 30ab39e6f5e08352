import QuantumScript.Text.CaseTable

/-!
# Letter case of a text

Upper and lower case of a whole text by the full case mappings. Every character is mapped on its
own but the capital sigma, whose lower case is the final form when a cased character stands before
it and none after it, case-ignorable characters aside.
-/

namespace QuantumScript.Text

/-- The code point that a table of shifts gives, if it moves the given one. -/
def shifted (code : Nat) : List Shift → Option Nat
  | [] => none
  | s :: rest =>
    if code < s.first then none
    else if code ≤ s.last then
      if (code - s.first) % s.step = 0 then some (code + s.offset).toNat else shifted code rest
    else shifted code rest

/-- The other case of one character, by a table of expansions and a table of shifts. -/
def mapCase (expansions : List (Nat × List Nat)) (shifts : List Shift) (c : Char) : List Char :=
  match expansions.lookup c.toNat with
  | some codes => codes.map Char.ofNat
  | none =>
    match shifted c.toNat shifts with
    | some code => [Char.ofNat code]
    | none => [c]

/-- Whether the first character that is not case-ignorable is cased. -/
def meetsCased (cs : List Char) : Bool :=
  match cs.dropWhile caseIgnorable.contains with
  | [] => false
  | c :: _ => cased.contains c

/-- Lower case of the text `cs`, where `before` is the text before it, last character first. -/
def lowerAfter (before : List Char) : List Char → List Char
  | [] => []
  | c :: rest =>
    let mapped :=
      if c = 'Σ' then
        if meetsCased before && !meetsCased rest then ['ς'] else ['σ']
      else mapCase lowerExpansions lowerShifts c
    mapped ++ lowerAfter (c :: before) rest

/-- A text in lower case. -/
def lower (s : String) : String :=
  String.ofList (lowerAfter [] s.toList)

/-- A text in upper case. -/
def upper (s : String) : String :=
  String.ofList (s.toList.flatMap (mapCase upperExpansions upperShifts))

end QuantumScript.Text
