import QuantumScript.Eval
import QuantumScript.Proofs.Run.Library
import QuantumScript.Proofs.Store.Scope

/-!
# What a run may do to a machine

`Effects own before after` says that a machine becomes another by changes that a run may make: names
bound in the scope `own` or overwritten where they are bound, closures and arrays added, calls of
the library, and the same again inside scopes that are made for a block, a round of a loop or a
call. Where there is no `own`, no name is bound but in such new scopes.

Every run has no other effects, whatever its outcome (`Eval.effected`). What holds of all effects
therefore holds of all runs, and is proved by an induction over `Effects` that no longer mentions
expressions and statements.
-/

namespace QuantumScript

/-- A machine with a new scope inside another, in which parameters are bound to arguments. -/
def Machine.opened (m : Machine) (parent : ScopeId) (params : List String) (args : List Value) :
    Machine :=
  m.mapStore fun store => Eval.bindAll store.nextScope params args (store.child parent).2

namespace Eval

/-- Entering a function fails on the machine as it is, or opens a scope for its body. -/
theorem enter_eq (limit : Nat) (id : ClosureId) (args : List Value) (span : Span) (m : Machine) :
    (∃ fault, enter limit id args span m = (.failed fault, m)) ∨
      ∃ f, m.store.closure? id = some f ∧ m.depth < limit ∧
        enter limit id args span m =
          (.done (m.store.nextScope, f.body), m.opened f.scope f.params args) := by
  unfold enter
  cases hf : m.store.closure? id with
  | none => exact .inl ⟨_, rfl⟩
  | some f =>
    dsimp only
    -- The number of arguments is checked before the depth.
    split
    · exact .inl ⟨_, rfl⟩
    · split
      · exact .inl ⟨_, rfl⟩
      · exact .inr ⟨f, rfl, by omega, rfl⟩

/-- A function is entered exactly when it is there, the arguments fit and fewer function bodies than
the limit are being run. -/
theorem enter_eq_done {limit : Nat} {id : ClosureId} {args : List Value} {span : Span}
    {m after : Machine} {found : ScopeId × List Stmt} :
    enter limit id args span m = (.done found, after) ↔
      ∃ f, m.store.closure? id = some f ∧ args.length = f.params.length ∧ m.depth < limit ∧
        found = (m.store.nextScope, f.body) ∧ after = m.opened f.scope f.params args := by
  unfold enter
  cases hf : m.store.closure? id with
  | none => simp
  | some f =>
    dsimp only
    -- The number of arguments is checked before the depth.
    split
    · rename_i hargs
      exact ⟨nofun, fun ⟨_, hg, hfit, _⟩ => absurd (Option.some.inj hg ▸ hfit) hargs⟩
    · split
      · rename_i hdepth
        exact ⟨nofun, fun ⟨_, _, _, hlt, _⟩ => absurd hlt (Nat.not_lt.2 hdepth)⟩
      · constructor
        · intro h
          cases h
          exact ⟨f, rfl, by omega, by omega, rfl, rfl⟩
        · rintro ⟨_, ⟨⟩, -, -, rfl, rfl⟩
          rfl

/-- A call of a function fails on the machine as it is, or runs the body in a new scope. -/
theorem callValue_function (limit : Nat) (id : ClosureId) (args : List Value) (span : Span)
    (m : Machine) :
    (∃ fault, ∀ fuel, callValue limit (fuel + 1) (.function id) args span m = (.failed fault, m)) ∨
      ∃ f, m.store.closure? id = some f ∧ m.depth < limit ∧
        ∀ fuel, callValue limit (fuel + 1) (.function id) args span m =
          (Run.deeper (executeAll limit fuel m.store.nextScope f.body .null) >>= fun flow =>
            Run.done flow.callResult) (m.opened f.scope f.params args) := by
  have hcall (fuel : Nat) : callValue limit (fuel + 1) (.function id) args span m =
      (enter limit id args span).andThen (fun found =>
        Run.deeper (executeAll limit fuel found.1 found.2 .null) >>= fun flow =>
          Run.done flow.callResult) m := rfl
  rcases enter_eq limit id args span m with ⟨fault, he⟩ | ⟨f, hf, hlt, he⟩
  · refine .inl ⟨fault, fun fuel => ?_⟩
    rw [hcall, Run.andThen, he]
  · refine .inr ⟨f, hf, hlt, fun fuel => ?_⟩
    rw [hcall, Run.andThen, he]

/-- A block runs its statements in a new scope. -/
theorem execute_block (limit fuel : Nat) (scope : ScopeId) (body : List Stmt) (span : Span)
    (m : Machine) :
    execute limit (fuel + 1) scope (.block body span) m =
      executeAll limit fuel m.store.nextScope body .null (m.opened scope [] []) := rfl

/-- A round of a loop runs its body in a new scope with the item bound. -/
theorem executeFor_cons (limit fuel : Nat) (scope : ScopeId) (binder : String) (item : Value)
    (items : List Value) (body : Stmt) (last : Value) (m : Machine) :
    executeFor limit (fuel + 1) scope binder (item :: items) body last m =
      (execute limit fuel m.store.nextScope body >>= fun flow =>
        match flow with
        | .normal value => executeFor limit fuel scope binder items body value
        | .returned value => Run.done (.returned value)) (m.opened scope [binder] [item]) := rfl

end Eval

/-- A machine becomes another by changes that a run may make in a scope. -/
inductive Effects : Option ScopeId → Machine → Machine → Prop
  /-- No change. -/
  | refl {own : Option ScopeId} (m : Machine) : Effects own m m
  /-- Changes one after the other. -/
  | trans {own : Option ScopeId} {before mid after : Machine} (first : Effects own before mid)
    (second : Effects own mid after) : Effects own before after
  /-- An assignment. -/
  | assign {scope : ScopeId} (name : String) (value : Value) (m : Machine) :
    Effects (some scope) m (m.mapStore fun store => store.assigned scope name value)
  /-- A name bound. -/
  | define {scope : ScopeId} (name : String) (value : Value) (m : Machine) :
    Effects (some scope) m (m.mapStore fun store => store.define scope name value)
  /-- A closure added. -/
  | closure {own : Option ScopeId} (f : Closure) (m : Machine) :
    Effects own m (m.mapStore fun store => (store.newClosure f).2)
  /-- An array added. -/
  | array {own : Option ScopeId} (items : Array Value) (m : Machine) :
    Effects own m (m.mapStore fun store => (store.newArray items).2)
  /-- A call of the library. -/
  | library {own : Option ScopeId} {call : Machine → Native.Result} (h : Native.Modest call)
    (m : Machine) : Effects own m (call m).2
  /-- Changes inside a new scope. -/
  | inside {own : Option ScopeId} (parent : ScopeId) (params : List String) (args : List Value)
    {before after : Machine}
    (inner : Effects (some before.store.nextScope) (before.opened parent params args) after) :
    Effects own before after
  /-- Changes inside a new scope, while one more function body is run. -/
  | called {own : Option ScopeId} (parent : ScopeId) (params : List String) (args : List Value)
    {before after : Machine}
    (inner : Effects (some before.store.nextScope)
      { before.opened parent params args with depth := before.depth + 1 } after) :
    Effects own before { after with depth := after.depth - 1 }

/-- What changes no scope but new ones may be done in every scope. -/
theorem Effects.widen {own : Option ScopeId} {before after : Machine}
    (h : Effects own before after) (scope : ScopeId) (hn : own = none) :
    Effects (some scope) before after := by
  induction h with
  | refl m => exact .refl m
  | trans _ _ ihf ihs => exact .trans (ihf hn) (ihs hn)
  | assign | define => cases hn
  | closure f m => exact .closure f m
  | array items m => exact .array items m
  | library h m => exact .library h m
  | inside parent params args inner => exact .inside parent params args inner
  | called parent params args inner => exact .called parent params args inner

/-- Whatever a run does, as many function bodies are being run after it as before it. -/
theorem Effects.depth_eq {own : Option ScopeId} {before after : Machine}
    (h : Effects own before after) : after.depth = before.depth := by
  induction h with
  | trans _ _ ihf ihs => exact ihs.trans ihf
  | library h m => exact (h.leaves m).2.2.1
  | inside _ _ _ _ ih => exact ih
  | called parent params args inner ih => exact congrArg (· - 1) ih
  | _ => rfl

/-! ## Putting runs together -/

namespace Run

variable {α β : Type} {own : Option ScopeId}

/-- An assignment is a change that never fails. -/
theorem attempt_assign (scope : ScopeId) (name : String) (value : Value) :
    (Run.attempt fun store => store.assign scope name value) =
      Run.change fun store => store.assigned scope name value := by
  funext m
  simp only [attempt, Store.assign_eq]
  rfl

/-- After a run that yields a value comes the next one. -/
theorem bind_of_done {first : Run α} {next : α → Run β} {m mid : Machine} {value : α}
    (h : first m = (.done value, mid)) : (first >>= next) m = next value mid := by
  show first.andThen next m = _
  rw [andThen, h]

/-- After a run that fails comes no other. -/
theorem bind_of_failed {first : Run α} {next : α → Run β} {m mid : Machine} {fault : Fault}
    (h : first m = (.failed fault, mid)) : (first >>= next) m = (.failed fault, mid) := by
  show first.andThen next m = _
  rw [andThen, h]

/-- After a crash comes no other run. -/
theorem bind_of_crashed {first : Run α} {next : α → Run β} {m mid : Machine}
    (h : first m = (.crashed, mid)) : (first >>= next) m = (.crashed, mid) := by
  show first.andThen next m = _
  rw [andThen, h]

/-- After a run without enough fuel comes no other. -/
theorem bind_of_outOfFuel {first : Run α} {next : α → Run β} {m mid : Machine}
    (h : first m = (.outOfFuel, mid)) : (first >>= next) m = (.outOfFuel, mid) := by
  show first.andThen next m = _
  rw [andThen, h]

/-- What comes after a run depends on nothing but its outcome and what it leaves. -/
theorem bind_congr {first first' : Run α} {next : α → Run β} {m m' : Machine}
    (h : first m = first' m') : (first >>= next) m = (first' >>= next) m' := by
  show first.andThen next m = first'.andThen next m'
  rw [andThen, andThen, h]

/-- All that a run does, whatever its outcome, are changes that may be made in a scope. -/
def Effected (own : Option ScopeId) (run : Run α) : Prop :=
  ∀ m, Effects own m (run m).2

/-- A run that yields a value at once changes nothing. -/
theorem effected_done (value : α) : (Run.done value).Effected own :=
  fun m => .refl m

/-- A run without fuel changes nothing. -/
theorem effected_outOfFuel : (Run.outOfFuel : Run α).Effected own :=
  fun m => .refl m

/-- A question changes nothing. -/
theorem effected_ask (span : Span) (question : Store → Except Cause α) :
    (Run.ask span question).Effected own := by
  intro m
  unfold ask
  cases question m.store with
  | ok value => exact .refl m
  | error cause => exact .refl m

/-- Where a run has effects and so does what follows it, both have them together. -/
theorem effects_bind {first : Run α} {next : α → Run β} {m start : Machine}
    (hf : Effects own m (first start).2) (hn : ∀ value, (next value).Effected own) :
    Effects own m ((first >>= next) start).2 := by
  cases hs : first start with
  | mk outcome mid =>
    rw [hs] at hf
    cases outcome with
    | done value =>
      rw [bind_of_done hs]
      exact .trans hf (hn value mid)
    | failed fault =>
      rw [bind_of_failed hs]
      exact hf
    | crashed =>
      rw [bind_of_crashed hs]
      exact hf
    | outOfFuel =>
      rw [bind_of_outOfFuel hs]
      exact hf

/-- Two runs one after the other do what each of them does. -/
theorem Effected.bind {first : Run α} {next : α → Run β} (hf : first.Effected own)
    (hn : ∀ value, (next value).Effected own) : (first >>= next).Effected own :=
  fun m => effects_bind (hf m) hn

/-- A call of the library does what it does. -/
theorem effected_within (span : Span) {call : Machine → Native.Result}
    (h : Native.Modest call) : (Run.within span call).Effected own := by
  intro m
  have hcall : Effects own m (call m).2 := .library h m
  unfold within
  generalize call m = found at hcall
  obtain ⟨answer, after⟩ := found
  cases answer with
  | ok value => exact hcall
  | error cause => exact hcall
  | crash => exact hcall

/-- What changes no scope but new ones may be done in every scope. -/
theorem Effected.widen {run : Run α} (h : run.Effected none) (scope : ScopeId) :
    run.Effected (some scope) :=
  fun m => (h m).widen scope rfl

end Run

namespace Eval

/-- What the parts of the evaluator do with some fuel. -/
structure Effected (limit fuel : Nat) : Prop where
  /-- Expressions make changes in their scope. -/
  evaluate : ∀ scope e, (Eval.evaluate limit fuel scope e).Effected (some scope)
  /-- Several expressions make changes in their scope. -/
  evaluateAll : ∀ scope es, (Eval.evaluateAll limit fuel scope es).Effected (some scope)
  /-- Calls make changes in no scope that was there. -/
  callValue : ∀ callee args span, (Eval.callValue limit fuel callee args span).Effected none
  /-- Statements make changes in their scope. -/
  execute : ∀ scope s, (Eval.execute limit fuel scope s).Effected (some scope)
  /-- Blocks make changes in no scope that was there. -/
  block : ∀ scope body span, (Eval.execute limit fuel scope (.block body span)).Effected none
  /-- Several statements make changes in their scope. -/
  executeAll : ∀ scope body last,
    (Eval.executeAll limit fuel scope body last).Effected (some scope)
  /-- Loops with a condition make changes in their scope. -/
  executeWhile : ∀ scope condition body last,
    (Eval.executeWhile limit fuel scope condition body last).Effected (some scope)
  /-- The rounds of a loop through items make changes in no scope that was there. -/
  executeFor : ∀ scope binder items body last,
    (Eval.executeFor limit fuel scope binder items body last).Effected none

variable {limit fuel : Nat}

/-- Expressions make changes in their scope, if they do so with less fuel. -/
theorem evaluate_effected (ih : Effected limit fuel) (scope : ScopeId) (e : Expr) :
    (evaluate limit (fuel + 1) scope e).Effected (some scope) := by
  cases e with
  | number | text | bool | null => exact Run.effected_done _
  | name => exact Run.effected_ask _ _
  | binary op left right span =>
    exact (ih.evaluate scope left).bind fun _ => (ih.evaluate scope right).bind fun _ =>
      Run.effected_ask _ _
  | logical op left right span =>
    refine (ih.evaluate scope left).bind fun value => ?_
    split
    · exact Run.effected_done _
    · exact ih.evaluate scope right
  | unary op operand span =>
    exact (ih.evaluate scope operand).bind fun _ => Run.effected_ask _ _
  | assign name value span =>
    refine (ih.evaluate scope value).bind fun found => ?_
    rw [Run.attempt_assign]
    exact Run.Effected.bind (fun m => .assign name found m) fun _ => Run.effected_done _
  | call callee args span =>
    exact (ih.evaluate scope callee).bind fun f => (ih.evaluateAll scope args).bind fun values =>
      (ih.callValue f values span).widen scope
  | methodCall object method args span =>
    exact (ih.evaluate scope object).bind fun found =>
      (ih.evaluateAll scope args).bind fun values =>
        Run.effected_within span (.inl (Method.call_oblivious found method values))
  | member object name span =>
    exact (ih.evaluate scope object).bind fun _ => Run.effected_ask _ _
  | array elements span =>
    refine (ih.evaluateAll scope elements).bind fun values => ?_
    exact Run.Effected.bind (fun m => .array values.toArray m) fun _ => Run.effected_done _
  | index object index span =>
    exact (ih.evaluate scope object).bind fun _ => (ih.evaluate scope index).bind fun _ =>
      Run.effected_ask _ _

/-- Several expressions make changes in their scope, if they do so with less fuel. -/
theorem evaluateAll_effected (ih : Effected limit fuel) (scope : ScopeId) (es : List Expr) :
    (evaluateAll limit (fuel + 1) scope es).Effected (some scope) := by
  cases es with
  | nil => exact Run.effected_done _
  | cons e es =>
    exact (ih.evaluate scope e).bind fun _ => (ih.evaluateAll scope es).bind fun _ =>
      Run.effected_done _

/-- Calls make changes in no scope that was there, if bodies do so in theirs with less fuel. -/
theorem callValue_effected (ih : Effected limit fuel) (callee : Value) (args : List Value)
    (span : Span) : (callValue limit (fuel + 1) callee args span).Effected none := by
  cases callee with
  | native f => exact Run.effected_within span (f.call_modest args)
  | function id =>
    intro m
    rcases callValue_function limit id args span m with ⟨fault, hc⟩ | ⟨f, -, -, hc⟩
    · rw [hc]
      exact .refl m
    · -- The body runs in a scope of its own inside the one of the closure.
      rw [hc]
      refine Run.effects_bind (.called f.scope f.params args ?_) fun _ => Run.effected_done _
      exact ih.executeAll m.store.nextScope f.body .null _
  | _ => exact Run.effected_ask _ _

/-- Statements one after the other make changes in their scope, if they do so with less fuel. -/
theorem executeAll_effected (ih : Effected limit fuel) (scope : ScopeId) (body : List Stmt)
    (last : Value) : (executeAll limit (fuel + 1) scope body last).Effected (some scope) := by
  cases body with
  | nil => exact Run.effected_done _
  | cons s body =>
    refine (ih.execute scope s).bind fun flow => ?_
    cases flow with
    | normal value => exact ih.executeAll scope body value
    | returned value => exact Run.effected_done _

/-- Loops with a condition make changes in their scope, if they do so with less fuel. -/
theorem executeWhile_effected (ih : Effected limit fuel) (scope : ScopeId) (condition : Expr)
    (body : Stmt) (last : Value) :
    (executeWhile limit (fuel + 1) scope condition body last).Effected (some scope) := by
  refine (ih.evaluate scope condition).bind fun value => ?_
  split
  · refine (ih.execute scope body).bind fun flow => ?_
    cases flow with
    | normal value => exact ih.executeWhile scope condition body value
    | returned value => exact Run.effected_done _
  · exact Run.effected_done _

/-- The rounds of a loop make changes in no scope that was there, if their bodies make them in the
scopes of the rounds with less fuel. -/
theorem executeFor_effected (ih : Effected limit fuel) (scope : ScopeId) (binder : String)
    (items : List Value) (body : Stmt) (last : Value) :
    (executeFor limit (fuel + 1) scope binder items body last).Effected none := by
  cases items with
  | nil => exact Run.effected_done _
  | cons item items =>
    intro m
    -- The item is bound in the scope of the round, so the scope of the loop gains no name.
    rw [executeFor_cons]
    have hround := ih.execute m.store.nextScope body (m.opened scope [binder] [item])
    refine Run.effects_bind (.inside scope [binder] [item] hround) fun flow => ?_
    cases flow with
    | normal value => exact ih.executeFor scope binder items body value
    | returned value => exact Run.effected_done _

/-- Blocks make changes in no scope that was there, if their statements make them in the scope of
the block with less fuel. -/
theorem block_effected (ih : Effected limit fuel) (scope : ScopeId) (body : List Stmt)
    (span : Span) : (execute limit (fuel + 1) scope (.block body span)).Effected none := by
  intro m
  rw [execute_block]
  exact .inside scope [] [] (ih.executeAll m.store.nextScope body .null _)

/-- Statements make changes in their scope, if they do so with less fuel. -/
theorem execute_effected (ih : Effected limit fuel) (scope : ScopeId) (s : Stmt) :
    (execute limit (fuel + 1) scope s).Effected (some scope) := by
  cases s with
  | expr e => exact (ih.evaluate scope e).bind fun _ => Run.effected_done _
  | block body span => exact (block_effected ih scope body span).widen scope
  | cond condition yes no span =>
    refine (ih.evaluate scope condition).bind fun value => ?_
    split
    · exact ih.execute scope yes
    · cases no with
      | none => exact Run.effected_done _
      | some no => exact ih.execute scope no
  | whileLoop condition body span => exact ih.executeWhile scope condition body .null
  | forLoop binder items body span =>
    refine (ih.evaluate scope items).bind fun value => ?_
    exact (Run.effected_ask _ _).bind fun found =>
      (ih.executeFor scope binder found body .null).widen scope
  | function name params body span =>
    -- The closure is made first, then its name is bound in the scope itself.
    refine Run.Effected.bind (fun m => .closure ⟨name, params, body, scope⟩ m) fun id => ?_
    exact Run.Effected.bind (fun m => .define name (.function id) m) fun _ => Run.effected_done _
  | giveBack value span =>
    cases value with
    | none => exact Run.effected_done _
    | some e => exact (ih.evaluate scope e).bind fun _ => Run.effected_done _
  | importing => exact Run.effected_done _

/-- All runs have no other effects than those that a run may have. -/
theorem effected (limit fuel : Nat) : Effected limit fuel := by
  -- Each part of the evaluator calls the others with one unit of fuel less.
  induction fuel with
  | zero =>
    constructor <;> intros <;> exact Run.effected_outOfFuel
  | succ fuel ih =>
    exact {
      evaluate := evaluate_effected ih
      evaluateAll := evaluateAll_effected ih
      callValue := callValue_effected ih
      execute := execute_effected ih
      block := block_effected ih
      executeAll := executeAll_effected ih
      executeWhile := executeWhile_effected ih
      executeFor := executeFor_effected ih }

end Eval

end QuantumScript
