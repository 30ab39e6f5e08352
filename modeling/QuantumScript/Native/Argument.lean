import QuantumScript.Machine

/-!
# Arguments of library functions

What a library function does is a function of its arguments and the machine: it gives an answer, and
the machine it leaves. Here are the readings of arguments that the functions share, and the causes
they give when an argument has the wrong type.
-/

namespace QuantumScript

namespace Native

/-- How a call ends. -/
inductive Answer
  /-- With a value. -/
  | ok (value : Value)
  /-- With the cause that it fails for. -/
  | error (cause : Cause)
  /-- With neither: the whole program crashes. -/
  | crash

/-- The answer of a call, and the machine it leaves. -/
abbrev Result := Answer × Machine

/-- The cause that an argument of `function` is not `expected`. -/
def typeError (store : Store) (function expected : String) (given : Value) : Cause :=
  .typeMismatch (function ++ "() expects " ++ expected) expected (store.typeName given)

/-- A value as a number, or the cause that it is none. -/
def asNumber (store : Store) (context : String) : Value → Except Cause Float
  | .number n => .ok n
  | other => .error (.typeMismatch context "number" (store.typeName other))

/-- A number among the arguments of `function`. -/
def numberArg (store : Store) (function : String) (given : Value) : Except Cause Float :=
  asNumber store (function ++ "() expects a number") given

/-- A number that may be missing or `null`. -/
def maybeNumberArg (store : Store) (function : String) :
    Option Value → Except Cause (Option Float)
  | none | some .null => .ok none
  | some given => (numberArg store function given).map some

/-- A number that may be missing or `null`, with what it is then. -/
def numberArgOr (store : Store) (function : String) (fallback : Float) (given : Option Value) :
    Except Cause Float :=
  (maybeNumberArg store function given).map fun n => n.getD fallback

/-- A qubit among the arguments of `function`. -/
def qubitArg (store : Store) (function : String) (given : Value) :
    Except Cause (ObjectId × Qubit) :=
  match given with
  | .object id =>
    match store.object? id with
    | some (.qubit q) => .ok (id, q)
    | _ => .error (typeError store function "a qubit" given)
  | _ => .error (typeError store function "a qubit" given)

/-- A chakra among the arguments of `function`. -/
def chakraArg (store : Store) (function : String) (given : Value) :
    Except Cause (ObjectId × Chakra) :=
  match given with
  | .object id =>
    match store.object? id with
    | some (.chakra c) => .ok (id, c)
    | _ => .error (typeError store function "a chakra" given)
  | _ => .error (typeError store function "a chakra" given)

/-- An energy among the arguments of `function`. -/
def energyArg (store : Store) (function : String) (given : Value) :
    Except Cause (ObjectId × Energy) :=
  match given with
  | .object id =>
    match store.object? id with
    | some (.energy e) => .ok (id, e)
    | _ => .error (typeError store function "an energy" given)
  | _ => .error (typeError store function "an energy" given)

/-- A call that reads something from its arguments and goes on with it; if that fails, the machine
stays as it is. -/
@[always_inline, inline]
def reading {α : Type} (m : Machine) (argument : Except Cause α) (next : α → Result) : Result :=
  match argument with
  | .ok a => next a
  | .error cause => (.error cause, m)

/-- The cause that a function got a wrong number of arguments. -/
def wrongArity (name : String) (arity : Arity) (given : List Value) : Cause :=
  .wrongArity name arity.phrase given.length

end Native

end QuantumScript
