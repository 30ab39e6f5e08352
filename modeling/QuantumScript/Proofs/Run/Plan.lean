import QuantumScript.Eval

/-!
# What a run consists of

A `Task` is a part of a program together with what it is run on: an expression, a call, a statement
and so on. The plan of a task says what its run consists of: steps of its own, other tasks, and the
bodies of functions, one after the other. A plan shows which tasks are started and on which
machines, which the run itself, a function from machines to machines, does not show.

Running a task with one more unit of fuel is following its plan, with the tasks in it run on the
fuel there was (`Task.run_succ`).
-/

namespace QuantumScript

open Eval

/-- A part of a program to be run. -/
inductive Task
  /-- An expression in a scope. -/
  | expr (scope : ScopeId) (e : Expr)
  /-- Expressions one after the other. -/
  | exprs (scope : ScopeId) (es : List Expr)
  /-- A call of a value. -/
  | call (callee : Value) (args : List Value) (span : Span)
  /-- A statement in a scope. -/
  | stmt (scope : ScopeId) (s : Stmt)
  /-- Statements one after the other. -/
  | stmts (scope : ScopeId) (body : List Stmt) (last : Value)
  /-- A loop with a condition, from one of its rounds on. -/
  | loop (scope : ScopeId) (condition : Expr) (body : Stmt) (last : Value)
  /-- The rounds of a loop through items that are left. -/
  | rounds (scope : ScopeId) (binder : String) (items : List Value) (body : Stmt) (last : Value)

namespace Task

/-- What a task yields. -/
abbrev Yield : Task → Type
  | expr _ _ | call _ _ _ => Value
  | exprs _ _ => List Value
  | stmt _ _ | stmts _ _ _ | loop _ _ _ _ | rounds _ _ _ _ _ => Flow

/-- The run of a task. -/
def run (limit fuel : Nat) : (task : Task) → Run task.Yield
  | expr scope e => evaluate limit fuel scope e
  | exprs scope es => evaluateAll limit fuel scope es
  | call callee args span => callValue limit fuel callee args span
  | stmt scope s => execute limit fuel scope s
  | stmts scope body last => executeAll limit fuel scope body last
  | loop scope condition body last => executeWhile limit fuel scope condition body last
  | rounds scope binder items body last => executeFor limit fuel scope binder items body last

end Task

/-- What a run consists of. -/
inductive Plan : Type → Type 1
  /-- A step that starts no task. -/
  | step {α : Type} (run : Run α) : Plan α
  /-- A task. -/
  | task (task : Task) : Plan task.Yield
  /-- The body of a function, as one more function body that is run. -/
  | body (id : ClosureId) (task : Task) : Plan task.Yield
  /-- One plan after another. -/
  | andThen {α β : Type} (first : Plan α) (next : α → Plan β) : Plan β

namespace Plan

instance : Monad Plan where
  pure value := .step (.done value)
  bind := .andThen

/-- Follows a plan, with the tasks in it run in a given way. -/
def run (start : (task : Task) → Run task.Yield) {α : Type} : Plan α → Run α
  | step run => run
  | task t => start t
  | body _ t => .deeper (start t)
  | andThen first next => (first.run start).andThen fun value => (next value).run start

end Plan

/-! ## The plans of tasks -/

/-- The plan of an expression. -/
def Expr.plan (scope : ScopeId) : Expr → Plan Value
  | .number value _ => pure (.number value)
  | .text value _ => pure (.text value)
  | .bool value _ => pure (.bool value)
  | .null _ => pure .null
  | .name label span => .step (.ask span fun store => store.get scope label)
  | .binary op left right span => do
    let left ← Plan.task (.expr scope left)
    let right ← Plan.task (.expr scope right)
    .step (.ask span fun store => store.binary op left right)
  | .logical op left right _ => do
    let left ← Plan.task (.expr scope left)
    if decides op left then pure left else .task (.expr scope right)
  | .unary op operand span => do
    let operand ← Plan.task (.expr scope operand)
    .step (.ask span fun store => store.unary op operand)
  | .assign label value _ => do
    let value ← Plan.task (.expr scope value)
    Plan.step (.attempt fun store => store.assign scope label value)
    pure value
  | .call callee args span => do
    let callee ← Plan.task (.expr scope callee)
    let args ← Plan.task (.exprs scope args)
    .task (.call callee args span)
  | .methodCall object method args span => do
    let object ← Plan.task (.expr scope object)
    let args ← Plan.task (.exprs scope args)
    .step (.within span fun m => Method.call object method args m)
  | .member object label span => do
    let object ← Plan.task (.expr scope object)
    .step (.ask span fun store => store.member object label)
  | .array elements _ => do
    let values ← Plan.task (.exprs scope elements)
    let id ← Plan.step (.make fun store => store.newArray values.toArray)
    pure (.array id)
  | .index object place span => do
    let object ← Plan.task (.expr scope object)
    let place ← Plan.task (.expr scope place)
    .step (.ask span fun store => store.index object place)

/-- The plan of a statement. -/
def Stmt.plan (scope : ScopeId) : Stmt → Plan Flow
  | .expr e => do
    let value ← Plan.task (.expr scope e)
    pure (.normal value)
  | .block body _ => do
    let inner ← Plan.step (.make fun store => store.child scope)
    .task (.stmts inner body .null)
  | .cond condition yes no _ => do
    let value ← Plan.task (.expr scope condition)
    if value.isTruthy then .task (.stmt scope yes)
    else
      match no with
      | some no => .task (.stmt scope no)
      | none => pure (.normal .null)
  | .whileLoop condition body _ => .task (.loop scope condition body .null)
  | .forLoop binder items body span => do
    let value ← Plan.task (.expr scope items)
    let items ← Plan.step (.ask span (loopItems value))
    .task (.rounds scope binder items body .null)
  | .function name params body _ => do
    let id ← Plan.step (.make fun store => store.newClosure ⟨name, params, body, scope⟩)
    Plan.step (.change fun store => store.define scope name (.function id))
    pure (.normal (.function id))
  | .giveBack none _ => pure (.returned .null)
  | .giveBack (some e) _ => do
    let value ← Plan.task (.expr scope e)
    pure (.returned value)
  | .importing _ _ _ => pure (.normal .null)

/-- What is done after a statement that may return: nothing, if it did. -/
def Flow.plan (go : Value → Plan Flow) : Flow → Plan Flow
  | .normal value => go value
  | .returned value => pure (.returned value)

/-- The plan of a call. -/
def Value.plan (limit : Nat) (args : List Value) (span : Span) : Value → Plan Value
  | .native f => .step (.within span fun m => f.call args m)
  | .function id => do
    let (scope, body) ← Plan.step (enter limit id args span)
    let flow ← Plan.body id (.stmts scope body .null)
    pure (Flow.callResult flow)
  | other => .step (.ask span fun store => .error (.notCallable (store.typeName other)))

namespace Task

/-- The plan of a task. -/
def plan (limit : Nat) : (task : Task) → Plan task.Yield
  | expr scope e => e.plan scope
  | exprs _ [] => (pure [] : Plan (List Value))
  | exprs scope (e :: es) => do
    let value ← Plan.task (.expr scope e)
    let values ← Plan.task (.exprs scope es)
    (pure (value :: values) : Plan (List Value))
  | call callee args span => callee.plan limit args span
  | stmt scope s => s.plan scope
  | stmts _ [] last => (pure (.normal last) : Plan Flow)
  | stmts scope (s :: body) _ => do
    let flow ← Plan.task (.stmt scope s)
    Flow.plan (fun value => .task (.stmts scope body value)) flow
  | loop scope condition body last => do
    let value ← Plan.task (.expr scope condition)
    if Value.isTruthy value then
      let flow ← Plan.task (.stmt scope body)
      Flow.plan (fun value => .task (.loop scope condition body value)) flow
    else (pure (.normal last) : Plan Flow)
  | rounds _ _ [] _ last => (pure (.normal last) : Plan Flow)
  | rounds scope binder (item :: items) body _ => do
    let inner ← Plan.step (.make fun store => store.child scope)
    Plan.step (.change fun store => store.define inner binder item)
    let flow ← Plan.task (.stmt inner body)
    Flow.plan (fun value => .task (.rounds scope binder items body value)) flow

/-- Without fuel, no task is run. -/
theorem run_zero (limit : Nat) (task : Task) : task.run limit 0 = Run.outOfFuel := by
  cases task <;> rfl

/-- Running a task is following its plan with one unit of fuel less. -/
theorem run_succ (limit fuel : Nat) (task : Task) :
    task.run limit (fuel + 1) = (task.plan limit).run (run limit fuel) := by
  cases task with
  | expr scope e =>
    cases e with
    | logical op left right span =>
      refine congrArg (Run.andThen (evaluate limit fuel scope left)) (funext fun left => ?_)
      dsimp only
      split <;> rfl
    | _ => rfl
  | exprs scope es => cases es <;> rfl
  | call callee args span => cases callee <;> rfl
  | stmt scope s =>
    cases s with
    | cond condition yes no span =>
      refine congrArg (Run.andThen (evaluate limit fuel scope condition)) (funext fun value => ?_)
      dsimp only
      split
      · rfl
      · cases no <;> rfl
    | giveBack value span => cases value <;> rfl
    | _ => rfl
  | stmts scope body last =>
    cases body with
    | nil => rfl
    | cons s body =>
      refine congrArg (Run.andThen (execute limit fuel scope s)) (funext fun flow => ?_)
      cases flow <;> rfl
  | loop scope condition body last =>
    refine congrArg (Run.andThen (evaluate limit fuel scope condition)) (funext fun value => ?_)
    dsimp only
    split
    · refine congrArg (Run.andThen (execute limit fuel scope body)) (funext fun flow => ?_)
      cases flow <;> rfl
    · rfl
  | rounds scope binder items body last =>
    cases items with
    | nil => rfl
    | cons item items =>
      -- The new scope and the item bound in it are steps, after which the body is run.
      funext m
      refine congrFun (congrArg (Run.andThen (execute limit fuel (m.store.child scope).1 body))
        (funext fun flow => ?_)) _
      cases flow <;> rfl

end Task

/-- The plan of a program. -/
def Program.plan (last : Value) : Program → Plan Value
  | [] => pure last
  | s :: rest => do
    let flow ← Plan.task (.stmt Store.globalScope s)
    match flow with
    | .normal value => Program.plan value rest
    | .returned _ => .step (.failed .returnOutsideFunction s.span)

/-- Running a program is following its plan. -/
theorem Eval.runProgram_eq_plan (limit fuel : Nat) (last : Value) (program : Program) :
    runProgram limit fuel last program = (program.plan last).run (Task.run limit fuel) := by
  induction program generalizing last with
  | nil => rfl
  | cons s rest ih =>
    refine congrArg (Run.andThen (execute limit fuel Store.globalScope s)) (funext fun flow => ?_)
    cases flow with
    | normal value => exact ih value
    | returned value => rfl

end QuantumScript
