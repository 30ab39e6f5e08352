import QuantumScript.Proofs.Run.Stages

/-!
# Scopes are opened in turn

Blocks, rounds of a loop through items and calls of functions are each given a scope of their own.
Along a run, the scopes that are given are the next ones of the store, each once and in the order in
which they are made (`Task.inTurn`). So none of them was ever given before.

All plans but three leave the number of scopes to the tasks that they start (`Plan.Even`). Those of
a block, of a round and of a call make a scope and start a task in it at once (`Plan.Opens`).
-/

namespace QuantumScript

open Eval

/-- The scopes that are given at some stages are those from one place up to another, in order. -/
inductive InTurn : Nat → List Stage → Nat → Prop
  /-- There is no stage. -/
  | nil (place : Nat) : InTurn place [] place
  /-- No scope is given at the first stage. -/
  | same {place last : Nat} {stage : Stage} {rest : List Stage} (none : stage.opened = none)
    (onwards : InTurn place rest last) : InTurn place (stage :: rest) last
  /-- The scope at the first place is given at the first stage. -/
  | next {place last : Nat} {stage : Stage} {rest : List Stage}
    (given : stage.opened = some ⟨place⟩) (onwards : InTurn (place + 1) rest last) :
    InTurn place (stage :: rest) last

namespace InTurn

variable {place mid last : Nat} {stages others : List Stage}

/-- Stages one after the other. -/
theorem append (first : InTurn place stages mid) (second : InTurn mid others last) :
    InTurn place (stages ++ others) last := by
  induction first with
  | nil => exact second
  | same none _ ih => exact .same none (ih second)
  | next given _ ih => exact .next given (ih second)

/-- The places do not go back. -/
theorem le (h : InTurn place stages last) : place ≤ last := by
  induction h with
  | nil => exact Nat.le_refl _
  | same _ _ ih => exact ih
  | next _ _ ih => exact Nat.le_of_succ_le ih

/-- The scopes that are given, by their places. -/
theorem filterMap_opened (h : InTurn place stages last) :
    (stages.filterMap Stage.opened).map ScopeId.index = List.range' place (last - place) := by
  induction h with
  | nil => simp
  | same none _ ih => rw [List.filterMap_cons_none none, ih]
  | next given onwards ih =>
    rename_i place last _ _
    have hle := onwards.le
    have hcount : last - place = last - (place + 1) + 1 := by omega
    rw [List.filterMap_cons_some given, List.map_cons, ih, hcount, List.range'_succ]

end InTurn

namespace Plan

variable {α : Type} {plan : Plan α} {start : (task : Task) → Run task.Yield}
  {inside : Task → Machine → List Stage} {outer : Option Task} {m : Machine}

/-- A plan that makes no scope itself, and gives none to the tasks that it starts. -/
def Even (outer : Option Task) {α : Type} : Plan α → Prop
  | step run => ∀ m, (run m).2.store.scopes.size = m.store.scopes.size
  | task t | body _ t => (outer.bind fun starter => starter.opens t) = none
  | andThen first next => first.Even outer ∧ ∀ value, (next value).Even outer

/-- A plan that first gives a scope to a task that it starts, and then is even. -/
def Opens (outer : Option Task) (id : ScopeId) {α : Type} : Plan α → Prop
  | step _ => False
  | task t | body _ t => (outer.bind fun starter => starter.opens t) = some id
  | andThen first next => first.Opens outer id ∧ ∀ value, (next value).Even outer

/-- A question is an even step. -/
theorem even_ask (span : Span) (question : Store → Except Cause α) :
    (step (Run.ask span question)).Even outer := by
  intro m
  unfold Run.ask
  cases question m.store <;> rfl

/-- A call of the library is an even step. -/
theorem even_within (span : Span) {call : Machine → Native.Result} (h : Native.Modest call) :
    (step (Run.within span call)).Even outer := by
  intro m
  have hscopes := congrArg Array.size (h.leaves m).1
  unfold Run.within
  generalize call m = found at hscopes
  obtain ⟨answer, after⟩ := found
  cases answer <;> exact hscopes

/-- A name that is bound is an even step. -/
theorem even_define (id : ScopeId) (name : String) (value : Value) :
    (step (Run.change fun store => store.define id name value)).Even outer :=
  fun _ => Array.size_modify

/-- An assignment is an even step. -/
theorem even_assign (id : ScopeId) (name : String) (value : Value) :
    (step (Run.attempt fun store => store.assign id name value)).Even outer := by
  rw [Run.attempt_assign]
  exact fun _ => Array.size_modify

/-- The runs of tasks give scopes in turn. -/
def GivesInTurn (start : (task : Task) → Run task.Yield) (inside : Task → Machine → List Stage) :
    Prop :=
  ∀ t m, InTurn m.store.scopes.size (inside t m) (start t m).2.store.scopes.size

/-- An even plan gives the scopes that its tasks give. -/
theorem Even.inTurn (hstart : GivesInTurn start inside) (h : plan.Even outer) (m : Machine) :
    InTurn m.store.scopes.size (plan.stages outer start inside m)
      (plan.run start m).2.store.scopes.size := by
  induction plan generalizing m with
  | step run => exact .same rfl ((h m).symm ▸ .nil _)
  | task t => exact .same h ((hstart t m).append (.same rfl (.nil _)))
  | body id t =>
    exact .same h ((hstart t { m with depth := m.depth + 1 }).append (.same rfl (.nil _)))
  | andThen first next ihf ihn =>
    have hfirst := ihf h.1 m
    rw [stages, run, Run.andThen]
    generalize first.run start m = found at hfirst
    obtain ⟨outcome, mid⟩ := found
    cases outcome with
    | done value => exact hfirst.append (ihn value (h.2 value) mid)
    | failed fault => exact hfirst.append (.nil _)
    | crashed => exact hfirst.append (.nil _)
    | outOfFuel => exact hfirst.append (.nil _)

/-- Where the last scope has not been given yet, a plan that gives it first gives it in turn. -/
theorem Opens.inTurn (hstart : GivesInTurn start inside) {place : Nat}
    (h : plan.Opens outer ⟨place⟩) (hm : m.store.scopes.size = place + 1) :
    InTurn place (plan.stages outer start inside m) (plan.run start m).2.store.scopes.size := by
  induction plan generalizing m with
  | step run => exact h.elim
  | task t =>
    have hinside := hstart t m
    rw [hm] at hinside
    exact .next h (hinside.append (.same rfl (.nil _)))
  | body id t =>
    have hinside := hstart t { m with depth := m.depth + 1 }
    rw [hm] at hinside
    exact .next h (hinside.append (.same rfl (.nil _)))
  | andThen first next ihf ihn =>
    have hfirst := ihf h.1 hm
    rw [stages, run, Run.andThen]
    generalize first.run start m = found at hfirst
    obtain ⟨outcome, mid⟩ := found
    cases outcome with
    | done value => exact hfirst.append ((h.2 value).inTurn hstart mid)
    | failed fault => exact hfirst.append (.nil _)
    | crashed => exact hfirst.append (.nil _)
    | outOfFuel => exact hfirst.append (.nil _)

end Plan

/-! ## Tasks and programs -/

section Plans

variable {start : (task : Task) → Run task.Yield} {inside : Task → Machine → List Stage}

/-- The plan of an expression is even. -/
theorem Expr.even_plan (scope : ScopeId) (e : Expr) :
    (e.plan scope).Even (some (.expr scope e)) := by
  cases e with
  | number | text | bool | null => exact fun _ => rfl
  | name => exact Plan.even_ask _ _
  | binary => exact ⟨rfl, fun _ => ⟨rfl, fun _ => Plan.even_ask _ _⟩⟩
  | logical op left right span =>
    refine ⟨rfl, fun value => ?_⟩
    dsimp only
    split
    · exact fun _ => rfl
    · exact rfl
  | unary => exact ⟨rfl, fun _ => Plan.even_ask _ _⟩
  | assign name value span =>
    exact ⟨rfl, fun found => ⟨Plan.even_assign scope name found, fun _ _ => rfl⟩⟩
  | call => exact ⟨rfl, fun _ => ⟨rfl, fun _ => rfl⟩⟩
  | methodCall object method args span =>
    exact ⟨rfl, fun found => ⟨rfl, fun values =>
      Plan.even_within span (.inl (Method.call_oblivious found method values))⟩⟩
  | member => exact ⟨rfl, fun _ => Plan.even_ask _ _⟩
  | array => exact ⟨rfl, fun _ => ⟨fun _ => rfl, fun _ _ => rfl⟩⟩
  | index => exact ⟨rfl, fun _ => ⟨rfl, fun _ => Plan.even_ask _ _⟩⟩

/-- What follows a statement is even, if it is so after a value. -/
theorem Flow.even_plan {outer : Option Task} {go : Value → Plan Flow}
    (h : ∀ value, (go value).Even outer) (flow : Flow) : (flow.plan go).Even outer := by
  cases flow with
  | normal value => exact h value
  | returned value => exact fun _ => rfl

/-- The plan of every statement but a block is even. -/
theorem Stmt.even_plan (scope : ScopeId) {s : Stmt} (h : s.isBlock = false) :
    (s.plan scope).Even (some (.stmt scope s)) := by
  cases s with
  | block => cases h
  | expr => exact ⟨rfl, fun _ _ => rfl⟩
  | cond condition yes no span =>
    refine ⟨rfl, fun value => ?_⟩
    dsimp only
    split
    · exact rfl
    · cases no with
      | none => exact fun _ => rfl
      | some no => exact rfl
  | whileLoop => exact rfl
  | forLoop => exact ⟨rfl, fun _ => ⟨Plan.even_ask _ _, fun _ => rfl⟩⟩
  | function => exact ⟨fun _ => rfl, fun _ => ⟨Plan.even_define _ _ _, fun _ _ => rfl⟩⟩
  | giveBack value span =>
    cases value with
    | none => exact fun _ => rfl
    | some value => exact ⟨rfl, fun _ _ => rfl⟩
  | importing => exact fun _ => rfl

/-- The plan of every task is even, but those of a block, of a round and of a call of a function. -/
theorem Task.even_plan (limit : Nat) (t : Task) :
    (t.plan limit).Even (some t) ∨ (∃ scope body span, t = .stmt scope (.block body span)) ∨
      (∃ scope binder item items body last, t = .rounds scope binder (item :: items) body last) ∨
      ∃ id args span, t = .call (.function id) args span := by
  cases t with
  | expr scope e => exact .inl (e.even_plan scope)
  | exprs scope es =>
    cases es with
    | nil => exact .inl fun _ => rfl
    | cons e es => exact .inl ⟨rfl, fun _ => ⟨rfl, fun _ _ => rfl⟩⟩
  | call callee args span =>
    cases callee with
    | function id => exact .inr (.inr (.inr ⟨id, args, span, rfl⟩))
    | native f => exact .inl (Plan.even_within span (f.call_modest args))
    | _ => exact .inl (Plan.even_ask _ _)
  | stmt scope s =>
    by_cases hblock : s.isBlock = false
    · exact .inl (Stmt.even_plan scope hblock)
    · cases s with
      | block body span => exact .inr (.inl ⟨scope, body, span, rfl⟩)
      | _ => exact absurd rfl hblock
  | stmts scope body last =>
    cases body with
    | nil => exact .inl fun _ => rfl
    | cons s body => exact .inl ⟨rfl, Flow.even_plan fun _ => rfl⟩
  | loop scope condition body last =>
    refine .inl ⟨rfl, fun value => ?_⟩
    dsimp only
    split
    · exact ⟨rfl, Flow.even_plan fun _ => rfl⟩
    · exact fun _ => rfl
  | rounds scope binder items body last =>
    cases items with
    | nil => exact .inl fun _ => rfl
    | cons item items => exact .inr (.inr (.inl ⟨scope, binder, item, items, body, last, rfl⟩))

/-- A block gives the next scope to its statements. -/
theorem Task.inTurn_block (hstart : Plan.GivesInTurn start inside) (limit : Nat) (scope : ScopeId)
    (body : List Stmt) (span : Span) (m : Machine) :
    let t := Task.stmt scope (.block body span)
    InTurn m.store.scopes.size ((t.plan limit).stages (some t) start inside m)
      ((t.plan limit).run start m).2.store.scopes.size := by
  have hopens : (Plan.task (.stmts m.store.nextScope body .null)).Opens
      (some (.stmt scope (.block body span))) m.store.nextScope := rfl
  have hsize : (m.store.child scope).2.scopes.size = m.store.scopes.size + 1 := Array.size_push _
  -- The scope is made by the first step.
  exact .same rfl (Plan.Opens.inTurn hstart hopens hsize)

/-- A round gives the next scope to its statement, after the item is bound there. -/
theorem Task.inTurn_round (hstart : Plan.GivesInTurn start inside) (limit : Nat) (scope : ScopeId)
    (binder : String) (item : Value) (items : List Value) (body : Stmt) (last : Value)
    (m : Machine) :
    let t := Task.rounds scope binder (item :: items) body last
    InTurn m.store.scopes.size ((t.plan limit).stages (some t) start inside m)
      ((t.plan limit).run start m).2.store.scopes.size := by
  have hopens : (Plan.task (.stmt m.store.nextScope body) >>= fun flow =>
      Flow.plan (fun value => .task (.rounds scope binder items body value)) flow).Opens
      (some (.rounds scope binder (item :: items) body last)) m.store.nextScope :=
    ⟨rfl, Flow.even_plan fun _ => rfl⟩
  have hsize : ((m.store.child scope).2.define m.store.nextScope binder item).scopes.size =
      m.store.scopes.size + 1 := by
    simp [Store.define, Store.child]
  exact .same rfl (.same rfl (Plan.Opens.inTurn hstart hopens hsize))

/-- Binding parameters makes no scope. -/
theorem Eval.size_bindAll (scope : ScopeId) (params : List String) (args : List Value)
    (store : Store) : (bindAll scope params args store).scopes.size = store.scopes.size := by
  unfold bindAll
  generalize params.zip args = pairs
  induction pairs generalizing store with
  | nil => rfl
  | cons pair pairs ih => exact (ih _).trans Array.size_modify

/-- A call of a function gives the next scope to its body, if it enters it. -/
theorem Task.inTurn_call (hstart : Plan.GivesInTurn start inside) (limit : Nat) (id : ClosureId)
    (args : List Value) (span : Span) (m : Machine) :
    let t := Task.call (.function id) args span
    InTurn m.store.scopes.size ((t.plan limit).stages (some t) start inside m)
      ((t.plan limit).run start m).2.store.scopes.size := by
  intro t
  have hplan : t.plan limit = .andThen (.step (enter limit id args span)) fun found =>
      .andThen (.body id (.stmts found.1 found.2 .null)) fun flow =>
        .step (.done (Flow.callResult flow)) := rfl
  have hfirst : (Plan.step (enter limit id args span)).run start m = enter limit id args span m :=
    rfl
  rw [hplan, Plan.stages, hfirst, Plan.run, Run.andThen, hfirst]
  rcases enter_eq limit id args span m with ⟨fault, henter⟩ | ⟨f, -, -, henter⟩ <;> rw [henter]
  · exact .same rfl (.nil _)
  · have hopens : (Plan.andThen (.body id (.stmts m.store.nextScope f.body .null)) fun flow =>
        .step (.done (Flow.callResult flow))).Opens (some t) m.store.nextScope :=
      ⟨rfl, fun _ _ => rfl⟩
    have hsize : (m.opened f.scope f.params args).store.scopes.size = m.store.scopes.size + 1 :=
      (size_bindAll _ _ _ _).trans (Array.size_push _)
    exact .same rfl (Plan.Opens.inTurn hstart hopens hsize)

/-- The plan of a program is even. -/
theorem Program.even_plan (last : Value) (program : Program) :
    (program.plan last).Even none := by
  induction program generalizing last with
  | nil => exact fun _ => rfl
  | cons s rest ih =>
    refine ⟨rfl, fun flow => ?_⟩
    cases flow with
    | normal value => exact ih value
    | returned value => exact fun _ => rfl

end Plans

/-- Along the run of a task, scopes are given in turn. -/
theorem Task.inTurn (limit fuel : Nat) : Plan.GivesInTurn (run limit fuel) (stages limit fuel) := by
  -- The tasks that a task starts have one unit of fuel less.
  induction fuel with
  | zero =>
    intro t m
    rw [run_zero]
    exact .nil _
  | succ fuel ih =>
    intro t m
    rw [run_succ]
    rcases t.even_plan limit with heven | ⟨scope, body, span, rfl⟩ |
      ⟨scope, binder, item, items, body, last, rfl⟩ | ⟨id, args, span, rfl⟩
    · exact heven.inTurn ih m
    · exact inTurn_block ih limit scope body span m
    · exact inTurn_round ih limit scope binder item items body last m
    · exact inTurn_call ih limit id args span m

/-- Along the run of a program, scopes are given in turn. -/
theorem Eval.inTurn_program (limit fuel : Nat) (program : Program) (m : Machine) :
    InTurn m.store.scopes.size
      ((program.plan .null).stages none (Task.run limit fuel) (Task.stages limit fuel) m)
      (runProgram limit fuel .null program m).2.store.scopes.size := by
  rw [runProgram_eq_plan]
  exact (Program.even_plan .null program).inTurn (Task.inTurn limit fuel) m

end QuantumScript
