import QuantumScript.Method
import QuantumScript.Native.Call
import QuantumScript.Operator
import QuantumScript.Outcome

/-!
# Running programs

Expressions yield values; statements yield a `Flow`, which is a value or a value on its way out of
the function that returns it. Both may change the machine, also when they fail.

Every run takes fuel, of which each step into a part of the program takes one unit. Blocks, loop
bodies and calls each get a scope of their own; the scope of a call lies in the scope the function
was declared in. No more than `limit` function bodies are run at a time.
-/

namespace QuantumScript

/-- What a statement yields. -/
inductive Flow
  /-- A value, after which the next statement runs. -/
  | normal (value : Value)
  /-- A value on its way out of a function. -/
  | returned (value : Value)

/-- What a call of a function yields, given what its body yielded. -/
def Flow.callResult : Flow → Value
  | normal _ => .null
  | returned value => value

namespace Eval

/-- Binds parameters to arguments in a scope, one after the other. -/
def bindAll (scope : ScopeId) (params : List String) (args : List Value) (store : Store) : Store :=
  (params.zip args).foldl (fun store (param, arg) => store.define scope param arg) store

/-- The items of an array, or the cause that a loop cannot go through a value. -/
def loopItems (items : Value) (store : Store) : Except Cause (List Value) :=
  match items with
  | .array id => .ok (store.items id).toList
  | other =>
    .error (.typeMismatch "for loop target must be an array" "array" (store.typeName other))

/-- Whether the left operand of a logical operator decides its value. -/
def decides (op : LogicalOp) (left : Value) : Bool :=
  match op with
  | .and => !left.isTruthy
  | .or => left.isTruthy

/-- Enters a function body: checks the arguments and the depth, and binds the parameters in a new
scope. Yields the scope and the body. -/
def enter (limit : Nat) (id : ClosureId) (args : List Value) (span : Span) :
    Run (ScopeId × List Stmt) :=
  fun m =>
    match m.store.closure? id with
    | none => (.failed ⟨.notCallable "function", some span⟩, m)
    | some f =>
      if args.length ≠ f.params.length then
        (.failed ⟨.wrongArity f.name (toString f.params.length) args.length, some span⟩, m)
      else if limit ≤ m.depth then (.failed ⟨.callDepthExceeded limit, some span⟩, m)
      else
        let (scope, store) := m.store.child f.scope
        (.done (scope, f.body), { m with store := bindAll scope f.params args store })

mutual

/-- Runs an expression in a scope. -/
def evaluate (limit : Nat) (fuel : Nat) (scope : ScopeId) (e : Expr) : Run Value :=
  match fuel with
  | 0 => Run.outOfFuel
  | fuel + 1 =>
    match e with
    | .number value _ => Run.done (.number value)
    | .text value _ => Run.done (.text value)
    | .bool value _ => Run.done (.bool value)
    | .null _ => Run.done .null
    | .name name span => Run.ask span fun store => store.get scope name
    | .binary op left right span => do
      let left ← evaluate limit fuel scope left
      let right ← evaluate limit fuel scope right
      Run.ask span fun store => store.binary op left right
    | .logical op left right _ => do
      let left ← evaluate limit fuel scope left
      if decides op left then Run.done left else evaluate limit fuel scope right
    | .unary op operand span => do
      let operand ← evaluate limit fuel scope operand
      Run.ask span fun store => store.unary op operand
    | .assign name value _ => do
      let value ← evaluate limit fuel scope value
      Run.attempt fun store => store.assign scope name value
      Run.done value
    | .call callee args span => do
      let callee ← evaluate limit fuel scope callee
      let args ← evaluateAll limit fuel scope args
      callValue limit fuel callee args span
    | .methodCall object method args span => do
      let object ← evaluate limit fuel scope object
      let args ← evaluateAll limit fuel scope args
      Run.within span fun m => Method.call object method args m
    | .member object name span => do
      let object ← evaluate limit fuel scope object
      Run.ask span fun store => store.member object name
    | .array elements _ => do
      let values ← evaluateAll limit fuel scope elements
      let id ← Run.make fun store => store.newArray values.toArray
      Run.done (.array id)
    | .index object index span => do
      let object ← evaluate limit fuel scope object
      let index ← evaluate limit fuel scope index
      Run.ask span fun store => store.index object index

/-- Runs expressions one after the other. -/
def evaluateAll (limit : Nat) (fuel : Nat) (scope : ScopeId) (es : List Expr) : Run (List Value) :=
  match fuel with
  | 0 => Run.outOfFuel
  | fuel + 1 =>
    match es with
    | [] => Run.done []
    | e :: es => do
      let value ← evaluate limit fuel scope e
      let values ← evaluateAll limit fuel scope es
      Run.done (value :: values)

/-- Calls a value with arguments. -/
def callValue (limit : Nat) (fuel : Nat) (callee : Value) (args : List Value) (span : Span) :
    Run Value :=
  match fuel with
  | 0 => Run.outOfFuel
  | fuel + 1 =>
    match callee with
    | .native f => Run.within span fun m => f.call args m
    | .function id => do
      let (scope, body) ← enter limit id args span
      let flow ← Run.deeper (executeAll limit fuel scope body .null)
      Run.done flow.callResult
    | other => Run.ask span fun store => .error (.notCallable (store.typeName other))

/-- Runs a statement in a scope. -/
def execute (limit : Nat) (fuel : Nat) (scope : ScopeId) (s : Stmt) : Run Flow :=
  match fuel with
  | 0 => Run.outOfFuel
  | fuel + 1 =>
    match s with
    | .expr e => do
      let value ← evaluate limit fuel scope e
      Run.done (.normal value)
    | .block body _ => do
      let inner ← Run.make fun store => store.child scope
      executeAll limit fuel inner body .null
    | .cond condition yes no _ => do
      let value ← evaluate limit fuel scope condition
      if value.isTruthy then execute limit fuel scope yes
      else
        match no with
        | some no => execute limit fuel scope no
        | none => Run.done (.normal .null)
    | .whileLoop condition body _ => executeWhile limit fuel scope condition body .null
    | .forLoop binder items body span => do
      let value ← evaluate limit fuel scope items
      let items ← Run.ask span (loopItems value)
      executeFor limit fuel scope binder items body .null
    | .function name params body _ => do
      let id ← Run.make fun store => store.newClosure ⟨name, params, body, scope⟩
      Run.change fun store => store.define scope name (.function id)
      Run.done (.normal (.function id))
    | .giveBack none _ => Run.done (.returned .null)
    | .giveBack (some e) _ => do
      let value ← evaluate limit fuel scope e
      Run.done (.returned value)
    | .importing _ _ _ => Run.done (.normal .null)

/-- Runs statements one after the other, up to one that returns; `last` is the value of the
statement before them. -/
def executeAll (limit : Nat) (fuel : Nat) (scope : ScopeId) (body : List Stmt) (last : Value) :
    Run Flow :=
  match fuel with
  | 0 => Run.outOfFuel
  | fuel + 1 =>
    match body with
    | [] => Run.done (.normal last)
    | s :: body => do
      let flow ← execute limit fuel scope s
      match flow with
      | .normal value => executeAll limit fuel scope body value
      | .returned value => Run.done (.returned value)

/-- Runs a statement as long as a condition holds; `last` is the value of the round before. -/
def executeWhile (limit : Nat) (fuel : Nat) (scope : ScopeId) (condition : Expr) (body : Stmt)
    (last : Value) : Run Flow :=
  match fuel with
  | 0 => Run.outOfFuel
  | fuel + 1 => do
    let value ← evaluate limit fuel scope condition
    if value.isTruthy then
      let flow ← execute limit fuel scope body
      match flow with
      | .normal value => executeWhile limit fuel scope condition body value
      | .returned value => Run.done (.returned value)
    else Run.done (.normal last)

/-- Runs a statement once for each of some items, each time in a new scope with the item bound;
`last` is the value of the round before. -/
def executeFor (limit : Nat) (fuel : Nat) (scope : ScopeId) (binder : String)
    (items : List Value) (body : Stmt) (last : Value) : Run Flow :=
  match fuel with
  | 0 => Run.outOfFuel
  | fuel + 1 =>
    match items with
    | [] => Run.done (.normal last)
    | item :: items => do
      let inner ← Run.make fun store => store.child scope
      Run.change fun store => store.define inner binder item
      let flow ← execute limit fuel inner body
      match flow with
      | .normal value => executeFor limit fuel scope binder items body value
      | .returned value => Run.done (.returned value)

end

/-- Runs the statements of a program in the outermost scope; `last` is the value of the statement
before them. A statement that returns out of no function is a fault. -/
def runProgram (limit : Nat) (fuel : Nat) (last : Value) : Program → Run Value
  | [] => Run.done last
  | s :: rest => do
    let flow ← execute limit fuel Store.globalScope s
    match flow with
    | .normal value => runProgram limit fuel value rest
    | .returned _ => Run.failed .returnOutsideFunction s.span

end Eval

end QuantumScript
