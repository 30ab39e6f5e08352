import QuantumScript.Decimal.Layout
import QuantumScript.Number.Hypotenuse
import QuantumScript.Value

/-!
# Objects

The mutable things that the library makes: qubits with two real amplitudes, chakras with a name and
a level, and energies with an amount, a frequency and a vibration.
-/

namespace QuantumScript

/-- A qubit `alpha|0> + beta|1>` with real amplitudes. -/
structure Qubit where
  /-- The amplitude of the first state. -/
  alpha : Float
  /-- The amplitude of the second state. -/
  beta : Float
deriving DecidableEq

/-- An energy center with a level. -/
structure Chakra where
  /-- Its name. -/
  name : String
  /-- Its level. -/
  level : Float
deriving DecidableEq

/-- An energy. -/
structure Energy where
  /-- How much there is. -/
  amount : Float
  /-- How fast it swings. -/
  frequency : Float
  /-- How it vibrates. -/
  vibration : Float
deriving DecidableEq

/-- A thing that the library makes. -/
inductive Object
  | qubit (q : Qubit)
  | chakra (c : Chakra)
  | energy (e : Energy)
deriving DecidableEq

namespace Object

/-- The type of an object. -/
def typeName : Object → String
  | qubit _ => "qubit"
  | chakra _ => "chakra"
  | energy _ => "energy"

/-- How an object is shown. -/
def display : Object → String
  | qubit q =>
    "qubit(" ++ Number.display q.alpha ++ "|0> + " ++ Number.display q.beta ++ "|1>)"
  | chakra c => "chakra(" ++ c.name ++ ", level " ++ Number.display c.level ++ ")"
  | energy e =>
    "energy(" ++ Number.display e.amount ++ " @ " ++ Number.display e.frequency ++
      "Hz, vibration " ++ Number.display e.vibration ++ ")"

/-- The value of a member of an object. -/
def member? : Object → String → Option Value
  | qubit q, "alpha" => some (.number q.alpha)
  | qubit q, "beta" => some (.number q.beta)
  | chakra c, "name" => some (.text c.name)
  | chakra c, "level" => some (.number c.level)
  | energy e, "amount" => some (.number e.amount)
  | energy e, "frequency" => some (.number e.frequency)
  | energy e, "vibration" => some (.number e.vibration)
  | _, _ => none

end Object

/-! ## Changes of a qubit -/

namespace Qubit

/-- The square root of two. -/
def rootTwo : Float := 1.4142135623730951

/-- The amplitudes turned halfway between the two states. -/
def hadamard (q : Qubit) : Qubit :=
  ⟨(q.alpha + q.beta) / rootTwo, (q.alpha - q.beta) / rootTwo⟩

/-- A qubit after a gate. -/
def through (q : Qubit) : Native.Gate → Qubit
  | .hadamard => q.hadamard
  | .pauliX => ⟨q.beta, q.alpha⟩
  | .pauliY => ⟨-q.beta, q.alpha⟩
  | .pauliZ => ⟨q.alpha, -q.beta⟩

/-- The probability of finding the first state. -/
def probZero (q : Qubit) : Float := q.alpha * q.alpha

/-- The probability of finding the second state. -/
def probOne (q : Qubit) : Float := q.beta * q.beta

/-- The state found by a measurement, for a random draw between zero and one: whether it is the
second one. -/
def observe (q : Qubit) (draw : Float) : Bool :=
  !(draw < q.probZero)

/-- The qubit that a measurement leaves. -/
def collapsed (second : Bool) : Qubit :=
  if second then ⟨0, 1⟩ else ⟨1, 0⟩

/-- Amplitudes in the given proportion, of total length one; proportions without a positive length
leave the qubit as it is. -/
def superpose (q : Qubit) (alpha beta : Float) : Qubit :=
  let length := Number.hypotenuse alpha beta
  if 0 < length then ⟨alpha / length, beta / length⟩ else q

end Qubit

/-- A level after a shift, kept between 0 and 100; without a shift it is 50. -/
def Chakra.balanced (c : Chakra) (shift : Option Float) : Chakra :=
  match shift with
  | none => { c with level := 50 }
  | some amount =>
    let level := c.level + amount
    { c with level := if level < 0 then 0 else if 100 < level then 100 else level }

/-- An energy with more in it. -/
def Energy.charged (e : Energy) (amount : Float) : Energy :=
  { e with amount := e.amount + amount }

end QuantumScript
