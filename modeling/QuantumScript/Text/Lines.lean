/-!
# Lines of a text

A text is a sequence of lines, each ended by a line feed; a last line may lack it.
-/

namespace QuantumScript.Text

/-- The lines of a text, where `current` is what the current line holds so far, last character
first, and `finish` is applied to a line (in that form) when its line feed is met. -/
def linesFrom (finish : List Char → List Char) (current : List Char) :
    List Char → List (List Char)
  | [] => if current.isEmpty then [] else [current.reverse]
  | c :: rest =>
    if c = '\n' then (finish current).reverse :: linesFrom finish [] rest
    else linesFrom finish (c :: current) rest

/-- Drops a carriage return from the front. -/
def dropReturn : List Char → List Char
  | [] => []
  | c :: rest => if c = '\r' then rest else c :: rest

/-- The lines of a text without their line feeds. -/
def feedLines (s : String) : List String :=
  (linesFrom id [] s.toList).map String.ofList

/-- The lines of a text without their line feeds and the carriage return before each. -/
def lines (s : String) : List String :=
  (linesFrom dropReturn [] s.toList).map String.ofList

/-- The line of a text with a given number, counted from one. -/
def line? (s : String) (number : Nat) : Option String :=
  if number = 0 then none else (lines s)[number - 1]?

end QuantumScript.Text
