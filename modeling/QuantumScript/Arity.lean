/-!
# Numbers of arguments

How many arguments a function of the library takes.
-/

namespace QuantumScript

/-- How many arguments a function takes. -/
inductive Arity
  /-- So many. -/
  | exact (count : Nat)
  /-- Between two counts, both included. -/
  | between (least greatest : Nat)
  /-- Any number. -/
  | any
deriving DecidableEq, Repr

namespace Arity

/-- Whether a number of arguments fits. -/
def accepts : Arity → Nat → Bool
  | exact count, given => given = count
  | between least greatest, given => least ≤ given && given ≤ greatest
  | any, _ => true

/-- How a message names the numbers that fit. -/
def phrase : Arity → String
  | exact count => toString count
  | between least greatest => toString least ++ " to " ++ toString greatest
  | any => "any number of"

end Arity

end QuantumScript
