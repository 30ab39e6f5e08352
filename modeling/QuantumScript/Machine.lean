import QuantumScript.Store

/-!
# Machines

A machine is what a program changes while it runs: the store, the console, the source of random
draws and the count of function bodies being run.
-/

namespace QuantumScript

/-- Something that a console showed. -/
inductive Event
  /-- A line of output. -/
  | line (text : String)
  /-- A question before a line of input is taken, without a line end. -/
  | prompt (text : String)
deriving DecidableEq, Repr

/-- What was shown so far, and the lines of input still to be taken. -/
structure Console where
  /-- What was shown, in order. -/
  shown : Array Event
  /-- The lines of input left, in order. -/
  pending : List String
deriving DecidableEq, Repr

namespace Console

/-- Shows a line. -/
def writeLine (console : Console) (text : String) : Console :=
  { console with shown := console.shown.push (.line text) }

/-- Shows a question and takes a line of input, if one is left. -/
def readLine (console : Console) (prompt : String) : Option String × Console :=
  let shown := console.shown.push (.prompt prompt)
  match console.pending with
  | [] => (none, ⟨shown, []⟩)
  | line :: rest => (some line, ⟨shown, rest⟩)

/-- The lines of output from the `start`-th event on. -/
def linesFrom (console : Console) (start : Nat) : List String :=
  (console.shown.toList.drop start).filterMap fun
    | .line text => some text
    | .prompt _ => none

end Console

/-- A source of random draws: two endless streams, of fractions and of choices, and how many draws
were made. Of the streams nothing is known. -/
structure Dice where
  /-- The fraction that each draw gives, if it is one of a fraction. -/
  fractions : Nat → Float
  /-- The number that each draw makes a choice by, if it is one of a choice. -/
  choices : Nat → Nat
  /-- The number of draws made so far. -/
  taken : Nat

namespace Dice

/-- The source on which every draw gives zero. -/
def zeros : Dice := ⟨fun _ => 0, fun _ => 0, 0⟩

/-- The source after one more draw. -/
def next (dice : Dice) : Dice :=
  { dice with taken := dice.taken + 1 }

/-- A draw of a fraction. -/
def draw (dice : Dice) : Float × Dice :=
  (dice.fractions dice.taken, dice.next)

/-- A draw of a place below a positive count. -/
def pick (dice : Dice) (count : Nat) : Nat × Dice :=
  (dice.choices dice.taken % count, dice.next)

end Dice

/-- What a program changes while it runs. -/
structure Machine where
  /-- Everything that values name. -/
  store : Store
  /-- Output and input. -/
  console : Console
  /-- Random draws. -/
  dice : Dice
  /-- The number of function bodies being run. -/
  depth : Nat

namespace Machine

/-- The machine with its store changed. -/
def mapStore (m : Machine) (f : Store → Store) : Machine :=
  { m with store := f m.store }

/-- Adds an array. -/
def newArray (m : Machine) (items : Array Value) : Value × Machine :=
  let (id, store) := m.store.newArray items
  (.array id, { m with store })

/-- Adds an object. -/
def newObject (m : Machine) (object : Object) : Value × Machine :=
  let (id, store) := m.store.newObject object
  (.object id, { m with store })

end Machine

end QuantumScript
