import QuantumScript.Fault
import QuantumScript.Object
import QuantumScript.Program.Tree

/-!
# Stores

A store holds everything that values and other entries can name: scopes, closures, arrays and
objects. Entries are only ever added, and an entry is named by its place.

Scopes form a tree: each but the first has a parent that was made before it. Reading a name,
overwriting it and testing for it each go from a scope outwards to the nearest one that binds it.
-/

namespace QuantumScript

/-- The names bound in one block, call or program, with the scope around it. -/
structure Scope where
  /-- The scope around this one. -/
  parent : Option ScopeId
  /-- The names bound here with their values, in the order in which they were first bound. -/
  bindings : List (String × Value)

/-- A function of a program with the scope it was declared in. -/
structure Closure where
  /-- Its name. -/
  name : String
  /-- The names of its parameters. -/
  params : List String
  /-- Its statements. -/
  body : List Stmt
  /-- The scope it was declared in. -/
  scope : ScopeId

/-- Everything that values can name. -/
structure Store where
  /-- The scopes, in the order in which they were made. -/
  scopes : Array Scope
  /-- The closures, in the order in which they were made. -/
  closures : Array Closure
  /-- The arrays, in the order in which they were made. -/
  arrays : Array (Array Value)
  /-- The objects, in the order in which they were made. -/
  objects : Array Object

/-! ## One scope -/

/-- Bindings with a name bound to a value: in its old place, or at the end if it is new. -/
def bind (name : String) (value : Value) : List (String × Value) → List (String × Value)
  | [] => [(name, value)]
  | (other, old) :: rest =>
    if other = name then (name, value) :: rest else (other, old) :: bind name value rest

namespace Scope

/-- The value a name is bound to in this scope. -/
def get? (scope : Scope) (name : String) : Option Value :=
  scope.bindings.lookup name

/-- The scope with a name bound to a value. -/
def define (scope : Scope) (name : String) (value : Value) : Scope :=
  { scope with bindings := bind name value scope.bindings }

/-- The names bound in this scope, in ascending order. -/
def names (scope : Scope) : List String :=
  (scope.bindings.map Prod.fst).mergeSort

/-- The place of the scope around the one at a place. A parent that was not made before its child
would not be followed. -/
def outer? (scope : Scope) (index : Nat) : Option { outer : Nat // outer < index } :=
  match scope.parent with
  | none => none
  | some parent => if h : parent.index < index then some ⟨parent.index, h⟩ else none

end Scope

/-! ## Scopes -/

namespace Store

/-- The store with one scope, which binds nothing. -/
def initial : Store :=
  { scopes := #[⟨none, []⟩], closures := #[], arrays := #[], objects := #[] }

/-- The outermost scope. -/
def globalScope : ScopeId := ⟨0⟩

/-- The scope with a given name, if the store has it. -/
def scope? (store : Store) (id : ScopeId) : Option Scope :=
  store.scopes[id.index]?

/-- Adds a scope inside another. -/
def child (store : Store) (parent : ScopeId) : ScopeId × Store :=
  (⟨store.scopes.size⟩, { store with scopes := store.scopes.push ⟨some parent, []⟩ })

/-- Binds a name in a scope, over any value it is bound to there. -/
def define (store : Store) (id : ScopeId) (name : String) (value : Value) : Store :=
  { store with scopes := store.scopes.modify id.index fun scope => scope.define name value }

/-- The value of a name in the first of some scopes, from one outwards, that binds it. -/
def lookup? (scopes : Array Scope) (name : String) (index : Nat) : Option Value :=
  match scopes[index]? with
  | none => none
  | some scope =>
    match scope.get? name with
    | some value => some value
    | none =>
      match scope.outer? index with
      | none => none
      | some outer => lookup? scopes name outer.val
termination_by index
decreasing_by exact outer.property

/-- Whether one of some scopes, from one outwards, binds a name. -/
def anyBinds (scopes : Array Scope) (name : String) (index : Nat) : Bool :=
  match scopes[index]? with
  | none => false
  | some scope =>
    (scope.get? name).isSome ||
      match scope.outer? index with
      | none => false
      | some outer => anyBinds scopes name outer.val
termination_by index
decreasing_by exact outer.property

/-- Some scopes with the value of a name overwritten in the first of them, from one outwards, that
binds it. -/
def overwrite? (scopes : Array Scope) (name : String) (value : Value) (index : Nat) :
    Option (Array Scope) :=
  match scopes[index]? with
  | none => none
  | some scope =>
    if (scope.get? name).isSome then
      some (scopes.modify index fun scope => scope.define name value)
    else
      match scope.outer? index with
      | none => none
      | some outer => overwrite? scopes name value outer.val
termination_by index
decreasing_by exact outer.property

/-- Whether a name is bound in a scope or around it. -/
def binds (store : Store) (id : ScopeId) (name : String) : Bool :=
  anyBinds store.scopes name id.index

/-- The value of a name, looked up from a scope outwards. -/
def get? (store : Store) (id : ScopeId) (name : String) : Option Value :=
  lookup? store.scopes name id.index

/-- The value of a name, or the cause that it has none. -/
def get (store : Store) (id : ScopeId) (name : String) : Except Cause Value :=
  match store.get? id name with
  | some value => .ok value
  | none => .error (.undefinedVariable name)

/-- Overwrites the nearest binding of a name. -/
def set (store : Store) (id : ScopeId) (name : String) (value : Value) : Except Cause Store :=
  match overwrite? store.scopes name value id.index with
  | some scopes => .ok { store with scopes }
  | none => .error (.undefinedVariable name)

/-- Overwrites the nearest binding of a name, or binds it in the scope itself if there is none. -/
def assign (store : Store) (id : ScopeId) (name : String) (value : Value) : Except Cause Store :=
  if store.binds id name then store.set id name value else .ok (store.define id name value)

/-- The names bound in a scope itself, in ascending order. -/
def names (store : Store) (id : ScopeId) : List String :=
  match store.scope? id with
  | some scope => scope.names
  | none => []

/-! ## Closures, arrays and objects -/

/-- Adds a closure. -/
def newClosure (store : Store) (closure : Closure) : ClosureId × Store :=
  (⟨store.closures.size⟩, { store with closures := store.closures.push closure })

/-- The closure with a given name, if the store has it. -/
def closure? (store : Store) (id : ClosureId) : Option Closure :=
  store.closures[id.index]?

/-- Adds an array. -/
def newArray (store : Store) (items : Array Value) : ArrayId × Store :=
  (⟨store.arrays.size⟩, { store with arrays := store.arrays.push items })

/-- The items of an array. -/
def items (store : Store) (id : ArrayId) : Array Value :=
  store.arrays[id.index]?.getD #[]

/-- Adds an item at the end of an array. -/
def push (store : Store) (id : ArrayId) (item : Value) : Store :=
  { store with arrays := store.arrays.modify id.index fun items => items.push item }

/-- Removes the last item of an array. -/
def pop (store : Store) (id : ArrayId) : Store :=
  { store with arrays := store.arrays.modify id.index fun items => items.pop }

/-- Adds an object. -/
def newObject (store : Store) (object : Object) : ObjectId × Store :=
  (⟨store.objects.size⟩, { store with objects := store.objects.push object })

/-- The object with a given name, if the store has it. -/
def object? (store : Store) (id : ObjectId) : Option Object :=
  store.objects[id.index]?

/-- Puts an object in the place of another. -/
def setObject (store : Store) (id : ObjectId) (object : Object) : Store :=
  { store with objects := store.objects.setIfInBounds id.index object }

/-- The type of a value. -/
def typeName (store : Store) : Value → String
  | .number _ => "number"
  | .text _ => "string"
  | .bool _ => "boolean"
  | .null => "null"
  | .array _ => "array"
  | .function _ => "function"
  | .native _ => "native function"
  | .object id => ((store.object? id).map Object.typeName).getD "object"

end Store

end QuantumScript
