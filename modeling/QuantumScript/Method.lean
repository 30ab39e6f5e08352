import QuantumScript.Native.Core
import QuantumScript.Native.Quantum
import QuantumScript.Native.Spiritual
import QuantumScript.Value.Equality

/-!
# Members and methods

What can be read from a value with a dot, and what can be called on it.
-/

namespace QuantumScript

namespace Store

/-- The cause that a value has no such member. -/
def undefinedMember (store : Store) (object : Value) (member : String) : Cause :=
  .undefinedMember (store.typeName object) member

/-- The value of a member of a value. -/
def member (store : Store) (object : Value) (name : String) : Except Cause Value :=
  let found :=
    match object, name with
    | .array id, "length" => some (.number (Number.ofCount (store.items id).size))
    | .text s, "length" => some (.number (Number.ofCount s.length))
    | .object id, name => (store.object? id).bind fun o => o.member? name
    | _, _ => none
  match found with
  | some value => .ok value
  | none => .error (store.undefinedMember object name)

end Store

namespace Method

open Native (Result reading)

/-- The cause that a method got a wrong number of arguments. -/
def wrongArity (method : String) (arity : Arity) (args : List Value) : Cause :=
  .wrongArity method arity.phrase args.length

/-- Calls a method of an array. -/
def ofArray (id : ArrayId) (method : String) (args : List Value) (m : Machine) : Result :=
  match method, args with
  | "push", [item] => (.ok (.array id), m.mapStore fun store => store.push id item)
  | "push", _ => (.error (wrongArity method (.exact 1) args), m)
  | "pop", [] =>
    (.ok ((m.store.items id).back?.getD .null), m.mapStore fun store => store.pop id)
  | "pop", _ => (.error (wrongArity method (.exact 0) args), m)
  | "contains", [wanted] =>
    (.ok (.bool ((m.store.items id).any fun item => m.store.equal item wanted)), m)
  | "contains", _ => (.error (wrongArity method (.exact 1) args), m)
  | _, _ => (.error (m.store.undefinedMember (.array id) method), m)

/-- Calls a method of a text. -/
def ofText (s : String) (method : String) (args : List Value) (m : Machine) : Result :=
  match method, args with
  | "upper", [] => (.ok (.text (Text.upper s)), m)
  | "lower", [] => (.ok (.text (Text.lower s)), m)
  | "upper", _ | "lower", _ => (.error (wrongArity method (.exact 0) args), m)
  | _, _ => (.error (m.store.undefinedMember (.text s) method), m)

/-- Calls a method of a qubit. -/
def ofQubit (id : ObjectId) (q : Qubit) (method : String) (args : List Value) (m : Machine) :
    Result :=
  match method, args with
  | "measure", [] => Native.measureQubit id q m
  | "hadamard", [] => Native.replaceQubit id q.hadamard m
  | "measure", _ | "hadamard", _ => (.error (wrongArity method (.exact 0) args), m)
  | _, _ => (.error (m.store.undefinedMember (.object id) method), m)

/-- Calls a method of a chakra. -/
def ofChakra (id : ObjectId) (c : Chakra) (method : String) (args : List Value) (m : Machine) :
    Result :=
  let balance (shift : Option Value) : Result :=
    reading m (Native.maybeNumberArg m.store "balance" shift) fun shift =>
      Native.replaceChakra id (c.balanced shift) m
  match method, args with
  | "balance", [] => balance none
  | "balance", [shift] => balance (some shift)
  | "balance", _ => (.error (wrongArity method (.between 0 1) args), m)
  | _, _ => (.error (m.store.undefinedMember (.object id) method), m)

/-- Calls a method of an energy. -/
def ofEnergy (id : ObjectId) (e : Energy) (method : String) (args : List Value) (m : Machine) :
    Result :=
  match method, args with
  | "charge", [amount] =>
    reading m (Native.numberArg m.store "charge" amount) fun amount =>
      Native.replaceEnergy id (e.charged amount) m
  | "charge", _ => (.error (wrongArity method (.exact 1) args), m)
  | _, _ => (.error (m.store.undefinedMember (.object id) method), m)

/-- Calls a method of a value. -/
def call (object : Value) (method : String) (args : List Value) (m : Machine) : Result :=
  match object with
  | .array id => ofArray id method args m
  | .text s => ofText s method args m
  | .object id =>
    match m.store.object? id with
    | some (.qubit q) => ofQubit id q method args m
    | some (.chakra c) => ofChakra id c method args m
    | some (.energy e) => ofEnergy id e method args m
    | none => (.error (m.store.undefinedMember object method), m)
  | _ => (.error (m.store.undefinedMember object method), m)

end Method

end QuantumScript
