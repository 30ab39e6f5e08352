import QuantumScript.Native.Argument
import QuantumScript.Number.Truncate

/-!
# Quantum functions

Qubits with real amplitudes: gates, measurements and superpositions. Matrices stand here too.
-/

namespace QuantumScript.Native

/-- Puts a changed qubit in the place of a qubit, and yields the object. -/
def replaceQubit (id : ObjectId) (q : Qubit) (m : Machine) : Result :=
  (.ok (.object id), m.mapStore fun store => store.setObject id (.qubit q))

/-- Measures a qubit: a draw decides which state is found, and the qubit is left in that state. -/
def measureQubit (id : ObjectId) (q : Qubit) (m : Machine) : Result :=
  let (draw, dice) := m.dice.draw
  let second := q.observe draw
  let m := m.mapStore fun store => store.setObject id (.qubit (Qubit.collapsed second))
  (.ok (.number (if second then 1 else 0)), { m with dice })

/-- Gives two qubits the mean of their amplitudes. -/
def entangle (first second : ObjectId × Qubit) (m : Machine) : Result :=
  let mean : Qubit :=
    ⟨(first.2.alpha + second.2.alpha) / 2, (first.2.beta + second.2.beta) / 2⟩
  let m := m.mapStore fun store =>
    (store.setObject first.1 (.qubit mean)).setObject second.1 (.qubit mean)
  (.ok (.bool true), m)

/-- The most items that room can be made for at once: those of 24 bytes that fit in 2 ^ 63 - 1
bytes. -/
def capacity : Nat := 384307168202282325

/-- Adds so many arrays of `cols` items, all filled with the same value, after those of `taken`. -/
def newRows (cols : Nat) (fill : Value) :
    Nat → Array Value → Machine → Array Value × Machine
  | 0, taken, m => (taken, m)
  | count + 1, taken, m =>
    let (value, m) := m.newArray (Array.replicate cols fill)
    newRows cols fill count (taken.push value) m

/-- Makes an array of so many arrays, each of so many items that are all the same value. Room for
the rows is made before the first of them, and for the items of a row when it is made; beyond the
capacity that is a crash. -/
def matrix (rows cols : Nat) (fill : Value) (m : Machine) : Result :=
  if capacity < rows || (0 < rows && capacity < cols) then (.crash, m)
  else
    let (values, m) := newRows cols fill rows #[] m
    let (value, m) := m.newArray values
    (.ok value, m)

/-- Makes an array of arrays, all filled with the same value. -/
def createMatrix (rows cols : Float) (fill : Value) (m : Machine) : Result :=
  matrix (Number.truncateCount rows) (Number.truncateCount cols) fill m

/-- Makes a qubit from amplitudes that may be missing. -/
def newQubit (alpha beta : Option Value) (m : Machine) : Result :=
  reading m (numberArgOr m.store "qubit" 1 alpha) fun alpha =>
  reading m (numberArgOr m.store "qubit" 0 beta) fun beta =>
    let (value, m) := m.newObject (.qubit ⟨alpha, beta⟩)
    (.ok value, m)

/-- What a quantum function does with its arguments. -/
def Quantum.run (f : Quantum) (args : List Value) (m : Machine) : Result :=
  match f, args with
  | .qubit, [] => newQubit none none m
  | .qubit, [alpha] => newQubit (some alpha) none m
  | .qubit, [alpha, beta] => newQubit (some alpha) (some beta) m
  | .gate g, [given] =>
    reading m (qubitArg m.store g.name given) fun (id, q) => replaceQubit id (q.through g) m
  | .measure, [given] =>
    reading m (qubitArg m.store "measure" given) fun (id, q) => measureQubit id q m
  | .entangle, [first, second] =>
    reading m (qubitArg m.store "entangle" first) fun first =>
    reading m (qubitArg m.store "entangle" second) fun second => Native.entangle first second m
  | .superpose, [given, alpha, beta] =>
    reading m (qubitArg m.store "superpose" given) fun (id, q) =>
    reading m (numberArg m.store "superpose" alpha) fun alpha =>
    reading m (numberArg m.store "superpose" beta) fun beta =>
      replaceQubit id (q.superpose alpha beta) m
  | .probZero, [given] =>
    reading m (qubitArg m.store "prob_zero" given) fun (_, q) => (.ok (.number q.probZero), m)
  | .probOne, [given] =>
    reading m (qubitArg m.store "prob_one" given) fun (_, q) => (.ok (.number q.probOne), m)
  | .createMatrix, [rows, cols] =>
    reading m (numberArg m.store "create_matrix" rows) fun rows =>
    reading m (numberArg m.store "create_matrix" cols) fun cols =>
      Native.createMatrix rows cols (.number 0) m
  | .createMatrix, [rows, cols, fill] =>
    reading m (numberArg m.store "create_matrix" rows) fun rows =>
    reading m (numberArg m.store "create_matrix" cols) fun cols =>
      Native.createMatrix rows cols fill m
  | f, args => (.error (wrongArity f.name f.arity args), m)

end QuantumScript.Native
