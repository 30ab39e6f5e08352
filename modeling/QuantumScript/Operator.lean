import QuantumScript.Native.Argument
import QuantumScript.Number.Remainder
import QuantumScript.Value.Display
import QuantumScript.Value.Equality

/-!
# Operators

What an operator makes of the values of its operands, and what an index finds in an array. None of
them changes the store.
-/

namespace QuantumScript

namespace Store

/-- The cause that an operator does not fit its operands. -/
def operandError (store : Store) (op : BinaryOp) (left right : Value) : Cause :=
  .typeMismatch ("invalid operands for '" ++ op.spelling ++ "'")
    (if op = .add then "numbers or a string" else "numbers")
    (store.typeName left ++ " and " ++ store.typeName right)

/-- What a binary operator makes of two numbers. -/
def arithmetic (op : BinaryOp) (a b : Float) : Except Cause Value :=
  match op with
  | .add => .ok (.number (a + b))
  | .sub => .ok (.number (a - b))
  | .mul => .ok (.number (a * b))
  | .div => if b == 0 then .error .divisionByZero else .ok (.number (a / b))
  | .rem => if b == 0 then .error .divisionByZero else .ok (.number (Number.remainder a b))
  | .pow => .ok (.number (a.pow b))
  | .equal => .ok (.bool (a == b))
  | .notEqual => .ok (.bool (a != b))
  | .less => .ok (.bool (a < b))
  | .lessEqual => .ok (.bool (a ≤ b))
  | .greater => .ok (.bool (b < a))
  | .greaterEqual => .ok (.bool (b ≤ a))

/-- Whether a value is a text. -/
def isText : Value → Bool
  | .text _ => true
  | _ => false

/-- What a binary operator makes of two values. -/
def binary (store : Store) (op : BinaryOp) (left right : Value) : Except Cause Value :=
  match op with
  | .equal => .ok (.bool (store.equal left right))
  | .notEqual => .ok (.bool (!store.equal left right))
  | op =>
    match left, right with
    | .number a, .number b => arithmetic op a b
    | left, right =>
      if op = .add ∧ (isText left || isText right) then
        .ok (.text (store.display left ++ store.display right))
      else .error (store.operandError op left right)

/-- What a unary operator makes of a value. -/
def unary (store : Store) (op : UnaryOp) (operand : Value) : Except Cause Value :=
  match op with
  | .not => .ok (.bool (!operand.isTruthy))
  | .neg => (Native.asNumber store "unary '-' requires a number" operand).map fun n => .number (-n)

/-- The place in an array that a value names: a finite number, cut to a whole one. -/
def indexPlace (store : Store) (index : Value) : Except Cause Int := do
  let n ← Native.asNumber store "array index must be a number" index
  if n.isFinite then return Number.truncate n
  else throw (.typeMismatch "array index must be finite" "finite number" (Number.display n))

/-- The item of an array at a place. -/
def itemAt (items : Array Value) (place : Int) : Except Cause Value :=
  match if 0 ≤ place then items[place.toNat]? else none with
  | some item => .ok item
  | none => .error (.indexOutOfRange place items.size)

/-- The item of an array that an index names. -/
def index (store : Store) (object index : Value) : Except Cause Value :=
  match object with
  | .array id => do itemAt (store.items id) (← store.indexPlace index)
  | other =>
    .error (.typeMismatch "index access requires an array" "array" (store.typeName other))

end Store

end QuantumScript
