import QuantumScript.Native.Core
import QuantumScript.Native.Quantum
import QuantumScript.Native.Spiritual

/-!
# Calls of library functions

A function of the library checks the number of its arguments before it does anything.
-/

namespace QuantumScript.Native

/-- What a function of the library does with its arguments, for a number of arguments it takes. -/
def run (f : Native) (args : List Value) (m : Machine) : Result :=
  match f with
  | core f => f.run args m
  | quantum f => f.run args m
  | spiritual f => f.run args m

/-- A call of a function of the library. -/
def call (f : Native) (args : List Value) (m : Machine) : Result :=
  if f.arity.accepts args.length then f.run args m
  else (.error (wrongArity f.name f.arity args), m)

end QuantumScript.Native
