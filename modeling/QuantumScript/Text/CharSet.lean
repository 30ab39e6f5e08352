/-!
# Sets of characters

A set of characters is the list of code point ranges it is made of. The ranges are written in
ascending order, so a search for a small code point stops early.
-/

namespace QuantumScript.Text

/-- A set of characters: its code point ranges, both ends included, in ascending order. -/
structure CharSet where
  /-- The first and the last code point of each range. -/
  ranges : List (Nat × Nat)

/-- Whether a code point lies in one of some ascending ranges. -/
def inRanges (code : Nat) : List (Nat × Nat) → Bool
  | [] => false
  | (first, last) :: rest =>
    if code < first then false else if code ≤ last then true else inRanges code rest

/-- Whether a character belongs to a set. -/
def CharSet.contains (set : CharSet) (c : Char) : Bool :=
  inRanges c.toNat set.ranges

end QuantumScript.Text
