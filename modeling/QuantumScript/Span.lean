/-!
# Places in a source text

A `Position` is a point between two characters of a source text, a `Span` a region of it. Offsets
count bytes of the UTF-8 text from zero; lines and columns count from one, columns in characters.
-/

namespace QuantumScript

/-- A point in a source text. -/
structure Position where
  /-- The number of bytes before it. -/
  offset : Nat
  /-- The line it is on, counted from one. -/
  line : Nat
  /-- The column it is at, counted from one. -/
  column : Nat
deriving DecidableEq, Repr

/-- A region of a source text, with the line and column of its first character. -/
structure Span where
  /-- The offset of its first byte. -/
  start : Nat
  /-- The offset after its last byte. -/
  stop : Nat
  /-- The line of its first character. -/
  line : Nat
  /-- The column of its first character. -/
  column : Nat
deriving DecidableEq, Repr

namespace Position

/-- The point at the start of every text. -/
def origin : Position := ⟨0, 1, 1⟩

/-- The point after a character on the same line. -/
def step (p : Position) (c : Char) : Position :=
  { p with offset := p.offset + c.utf8Size, column := p.column + 1 }

/-- The point after a line feed, at the start of the next line. -/
def nextLine (p : Position) : Position :=
  ⟨p.offset + '\n'.utf8Size, p.line + 1, 1⟩

/-- The point after a stretch of text. A backslash hides the character after it, so that a line feed
there does not start a line. -/
def past (p : Position) : List Char → Position
  | [] => p
  | [c] => if c = '\n' then p.nextLine else p.step c
  | c :: d :: rest =>
    if c = '\\' then ((p.step c).step d).past rest
    else if c = '\n' then p.nextLine.past (d :: rest)
    else (p.step c).past (d :: rest)

/-- The region from one point to another. -/
def spanTo (p q : Position) : Span :=
  ⟨p.offset, q.offset, p.line, p.column⟩

end Position

/-- The region from the start of one region to the end of another, or to its own end if that comes
later. -/
def Span.through (s t : Span) : Span :=
  { s with stop := max t.stop s.stop }

end QuantumScript
