import QuantumScript.Arity

/-!
# The functions of the library

The library has three parts: `Core` for input, output, conversions and arrays, `Quantum` for qubits
and `Spiritual` for chakras and energies. A function is known by its name and by the numbers of
arguments it takes; what it does is said in the modules of its part.
-/

namespace QuantumScript

namespace Native

/-- Functions from numbers to numbers. -/
inductive Math
  | abs
  | sqrt
  | sin
  | cos
  | floor
  | ceil
  | round
deriving DecidableEq, Repr

/-- Functions for input, output, conversions and arrays. -/
inductive Core
  | print
  | input
  | number
  | string
  | boolean
  | math (f : Math)
  | len
  | push
  | pop
  | type
  | range
deriving DecidableEq, Repr

/-- Changes of a qubit's amplitudes that can be undone. -/
inductive Gate
  | hadamard
  | pauliX
  | pauliY
  | pauliZ
deriving DecidableEq, Repr

/-- Functions on qubits, and matrices. -/
inductive Quantum
  | qubit
  | gate (g : Gate)
  | measure
  | entangle
  | superpose
  | probZero
  | probOne
  | createMatrix
deriving DecidableEq, Repr

/-- Functions on chakras and energies, and guidance. -/
inductive Spiritual
  | chakra
  | energy
  | balanceChakra
  | chargeEnergy
  | setFrequency
  | setVibration
  | karma
  | dharma
  | manifest
  | meditate
  | alignChakras
  | invokeElement
  | goldenRatio
  | fibonacci
  | higherSelfGuide
deriving DecidableEq, Repr

/-- The name of a function from numbers to numbers. -/
def Math.name : Math → String
  | abs => "abs"
  | sqrt => "sqrt"
  | sin => "sin"
  | cos => "cos"
  | floor => "floor"
  | ceil => "ceil"
  | round => "round"

/-- The name of a core function. -/
def Core.name : Core → String
  | print => "print"
  | input => "input"
  | number => "number"
  | string => "string"
  | boolean => "boolean"
  | math f => f.name
  | len => "len"
  | push => "push"
  | pop => "pop"
  | type => "type"
  | range => "range"

/-- The name of a gate. -/
def Gate.name : Gate → String
  | hadamard => "hadamard"
  | pauliX => "pauli_x"
  | pauliY => "pauli_y"
  | pauliZ => "pauli_z"

/-- The name of a quantum function. -/
def Quantum.name : Quantum → String
  | qubit => "qubit"
  | gate g => g.name
  | measure => "measure"
  | entangle => "entangle"
  | superpose => "superpose"
  | probZero => "prob_zero"
  | probOne => "prob_one"
  | createMatrix => "create_matrix"

/-- The name of a spiritual function. -/
def Spiritual.name : Spiritual → String
  | chakra => "chakra"
  | energy => "energy"
  | balanceChakra => "balance_chakra"
  | chargeEnergy => "charge_energy"
  | setFrequency => "set_frequency"
  | setVibration => "set_vibration"
  | karma => "karma"
  | dharma => "dharma"
  | manifest => "manifest"
  | meditate => "meditate"
  | alignChakras => "align_chakras"
  | invokeElement => "invoke_element"
  | goldenRatio => "golden_ratio"
  | fibonacci => "fibonacci"
  | higherSelfGuide => "higher_self_guide"

/-- The arguments of a core function. -/
def Core.arity : Core → Arity
  | print => .any
  | input => .between 0 1
  | number | string | boolean | math _ | len | pop | type => .exact 1
  | push => .exact 2
  | range => .between 1 3

/-- The arguments of a quantum function. -/
def Quantum.arity : Quantum → Arity
  | qubit => .between 0 2
  | gate _ | measure | probZero | probOne => .exact 1
  | entangle => .exact 2
  | superpose => .exact 3
  | createMatrix => .between 2 3

/-- The arguments of a spiritual function. -/
def Spiritual.arity : Spiritual → Arity
  | chakra => .between 0 2
  | energy => .between 0 3
  | balanceChakra => .between 1 2
  | chargeEnergy | setFrequency | setVibration | karma | dharma => .exact 2
  | manifest | meditate | invokeElement | fibonacci | higherSelfGuide => .exact 1
  | alignChakras | goldenRatio => .exact 0

/-- Every core function. -/
def Core.all : List Core :=
  [print, input, number, string, boolean, math .abs, math .sqrt, math .sin, math .cos, math .floor,
   math .ceil, math .round, len, push, pop, type, range]

/-- Every quantum function. -/
def Quantum.all : List Quantum :=
  [qubit, gate .hadamard, gate .pauliX, gate .pauliY, gate .pauliZ, measure, entangle, superpose,
   probZero, probOne, createMatrix]

/-- Every spiritual function. -/
def Spiritual.all : List Spiritual :=
  [chakra, energy, balanceChakra, chargeEnergy, setFrequency, setVibration, karma, dharma, manifest,
   meditate, alignChakras, invokeElement, goldenRatio, fibonacci, higherSelfGuide]

end Native

/-- A function of the library. -/
inductive Native
  | core (f : Native.Core)
  | quantum (f : Native.Quantum)
  | spiritual (f : Native.Spiritual)
deriving DecidableEq, Repr

namespace Native

/-- The name a program calls a function by. -/
def name : Native → String
  | core f => f.name
  | quantum f => f.name
  | spiritual f => f.name

/-- The arguments a function takes. -/
def arity : Native → Arity
  | core f => f.arity
  | quantum f => f.arity
  | spiritual f => f.arity

/-- The core library. -/
def coreLibrary : List Native := Core.all.map core

/-- The quantum library. -/
def quantumLibrary : List Native := Quantum.all.map quantum

/-- The spiritual library. -/
def spiritualLibrary : List Native := Spiritual.all.map spiritual

/-- Every function of the library. -/
def library : List Native := coreLibrary ++ quantumLibrary ++ spiritualLibrary

/-- The function of the library with a given name. -/
def ofName? (name : String) : Option Native :=
  library.find? fun f => f.name = name

/-- How a function is shown. -/
def display (f : Native) : String :=
  "<native fn " ++ f.name ++ ">"

end Native

end QuantumScript
