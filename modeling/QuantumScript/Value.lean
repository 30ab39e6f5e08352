import QuantumScript.Native

/-!
# Values

What expressions yield. Numbers, texts, truth values and `null` are plain; arrays, functions and
objects are names of entries in a store, so that two values may name the same one.
-/

namespace QuantumScript

/-- Names a scope of a store. -/
structure ScopeId where
  /-- The number of scopes made before it. -/
  index : Nat
deriving DecidableEq, Repr

/-- Names an array of a store. -/
structure ArrayId where
  /-- The number of arrays made before it. -/
  index : Nat
deriving DecidableEq, Repr

/-- Names an object of a store. -/
structure ObjectId where
  /-- The number of objects made before it. -/
  index : Nat
deriving DecidableEq, Repr

/-- Names a closure of a store. -/
structure ClosureId where
  /-- The number of closures made before it. -/
  index : Nat
deriving DecidableEq, Repr

/-- What an expression yields. -/
inductive Value
  | number (value : Float)
  | text (value : String)
  | bool (value : Bool)
  | null
  | array (id : ArrayId)
  | function (id : ClosureId)
  | native (f : Native)
  | object (id : ObjectId)
deriving DecidableEq

instance : Inhabited Value := ⟨.null⟩

/-- Whether a condition with this value holds: all values do but `null`, `false`, zero and the empty
text. -/
def Value.isTruthy : Value → Bool
  | null => false
  | bool value => value
  | number value => value != 0
  | text value => value != ""
  | array _ | function _ | native _ | object _ => true

end QuantumScript
