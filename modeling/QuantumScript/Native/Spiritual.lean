import QuantumScript.Native.Argument
import QuantumScript.Text.Casing
import QuantumScript.Value.Display

/-!
# Spiritual functions

Chakras, energies, guidance, and the numbers found in nature.
-/

namespace QuantumScript.Native

/-- Puts a changed chakra in the place of a chakra, and yields the object. -/
def replaceChakra (id : ObjectId) (c : Chakra) (m : Machine) : Result :=
  (.ok (.object id), m.mapStore fun store => store.setObject id (.chakra c))

/-- Puts a changed energy in the place of an energy, and yields the object. -/
def replaceEnergy (id : ObjectId) (e : Energy) (m : Machine) : Result :=
  (.ok (.object id), m.mapStore fun store => store.setObject id (.energy e))

/-- Makes a chakra from a name and a level that may be missing. -/
def newChakra (name level : Option Value) (m : Machine) : Result :=
  let name :=
    match name with
    | none | some .null => "root"
    | some given => m.store.display given
  reading m (numberArgOr m.store "chakra" 50 level) fun level =>
    let (value, m) := m.newObject (.chakra ⟨name, level⟩)
    (.ok value, m)

/-- Makes an energy from numbers that may be missing. -/
def newEnergy (amount frequency vibration : Option Value) (m : Machine) : Result :=
  reading m (numberArgOr m.store "energy" 100 amount) fun amount =>
  reading m (numberArgOr m.store "energy" 1 frequency) fun frequency =>
  reading m (numberArgOr m.store "energy" 1 vibration) fun vibration =>
    let (value, m) := m.newObject (.energy ⟨amount, frequency, vibration⟩)
    (.ok value, m)

/-- Shifts the level of a chakra, or resets it without a shift. -/
def balanceChakra (given : Value) (shift : Option Value) (m : Machine) : Result :=
  reading m (chakraArg m.store "balance_chakra" given) fun (id, c) =>
  reading m (maybeNumberArg m.store "balance_chakra" shift) fun shift =>
    replaceChakra id (c.balanced shift) m

/-- The Fibonacci number `count` steps after `b`, where `a` is the one before `b`. An infinite
number is not left again. -/
def fibonacciFrom : Nat → Float → Float → Float
  | 0, _, b => b
  | count + 1, a, b => if b.isInf then b else fibonacciFrom count b (a + b)

/-- The Fibonacci number at a place counted from one; zero before that. -/
def fibonacci (n : Int) : Float :=
  if n ≤ 0 then 0 else fibonacciFrom (n.toNat - 1) 0 1

/-- What an element stands for. -/
def element (name : String) : String :=
  match Text.lower name with
  | "earth" => "Stability and grounding"
  | "water" => "Flow and emotion"
  | "fire" => "Transformation and energy"
  | "air" => "Intellect and movement"
  | "ether" => "Spirit and connection"
  | _ => "Unknown element"

/-- The lines of guidance. -/
def guidance : List String :=
  ["Trust your intuition",
   "Follow the path of love",
   "Seek balance and harmony",
   "Embrace your divine purpose",
   "Connect with universal consciousness"]

/-- Yields a line of guidance by a draw. -/
def higherSelfGuide (m : Machine) : Result :=
  let (index, dice) := m.dice.pick guidance.length
  (.ok (.text (guidance.getD index "")), { m with dice })

/-- The golden ratio. -/
def goldenRatio : Float := 1.618033988749895

/-- The number of chakras. -/
def chakraCount : Nat := 7

/-- What a spiritual function does with its arguments. -/
def Spiritual.run (f : Spiritual) (args : List Value) (m : Machine) : Result :=
  match f, args with
  | .chakra, [] => newChakra none none m
  | .chakra, [name] => newChakra (some name) none m
  | .chakra, [name, level] => newChakra (some name) (some level) m
  | .energy, [] => newEnergy none none none m
  | .energy, [amount] => newEnergy (some amount) none none m
  | .energy, [amount, frequency] => newEnergy (some amount) (some frequency) none m
  | .energy, [amount, frequency, vibration] =>
    newEnergy (some amount) (some frequency) (some vibration) m
  | .balanceChakra, [given] => Native.balanceChakra given none m
  | .balanceChakra, [given, shift] => Native.balanceChakra given (some shift) m
  | .chargeEnergy, [given, amount] =>
    reading m (energyArg m.store "charge_energy" given) fun (id, e) =>
    reading m (numberArg m.store "charge_energy" amount) fun amount =>
      replaceEnergy id (e.charged amount) m
  | .setFrequency, [given, frequency] =>
    reading m (energyArg m.store "set_frequency" given) fun (id, e) =>
    reading m (numberArg m.store "set_frequency" frequency) fun frequency =>
      replaceEnergy id { e with frequency } m
  | .setVibration, [given, vibration] =>
    reading m (energyArg m.store "set_vibration" given) fun (id, e) =>
    reading m (numberArg m.store "set_vibration" vibration) fun vibration =>
      replaceEnergy id { e with vibration } m
  | .karma, [action, result] =>
    (.ok (.text ("Karma: " ++ m.store.display action ++ " -> " ++ m.store.display result)), m)
  | .dharma, [duty, purpose] =>
    (.ok (.text ("Dharma: " ++ m.store.display duty ++ " serves " ++ m.store.display purpose)), m)
  | .manifest, [wish] => (.ok (.text ("Manifesting: " ++ m.store.display wish)), m)
  | .meditate, [minutes] =>
    reading m (numberArgOr m.store "meditate" 5 (some minutes)) fun minutes =>
      let text := "Meditated for " ++ Number.display minutes ++ " minutes. Inner peace achieved."
      (.ok (.text text), m)
  | .alignChakras, [] => (.ok (.text ("All " ++ toString chakraCount ++ " chakras aligned")), m)
  | .invokeElement, [name] => (.ok (.text (element (m.store.display name))), m)
  | .goldenRatio, [] => (.ok (.number Native.goldenRatio), m)
  | .fibonacci, [n] =>
    reading m (numberArg m.store "fibonacci" n) fun n =>
      (.ok (.number (Native.fibonacci (Number.truncate n))), m)
  | .higherSelfGuide, [_] => Native.higherSelfGuide m
  | f, args => (.error (wrongArity f.name f.arity args), m)

end QuantumScript.Native
