import QuantumScript.Proofs.Run.Effects
import QuantumScript.Proofs.Run.Growth
import QuantumScript.Proofs.Run.Plan

/-!
# The stages of a run

The stages of a run are all that happens on its way, in order: each step that is made, each task
that is started and each that has ended, with the machine that there is at that moment. They are
read off the plans of the tasks, as the run itself is.

`Plan.Safe` says of a plan what it needs so that nothing that is named is missing: every step lets
the machine grow and keeps its store well-formed, and every task is started on what exists. The plan
of every task is safe (`Task.safe_plan`), so along every run the machine only grows, its store is
well-formed at each stage, and what tasks yield exists (`Task.along`).
-/

namespace QuantumScript

open Eval

/-- What a statement yields exists. -/
def Flow.LivesIn (store : Store) : Flow → Prop
  | normal value | returned value => value.LivesIn store

namespace Task

/-- What a task is run on exists, and the statements it runs have the shape of a program. -/
def Ready (store : Store) : Task → Prop
  | expr scope _ | exprs scope _ => store.HasScope scope
  | call callee args _ => callee.LivesIn store ∧ ∀ arg ∈ args, arg.LivesIn store
  | stmt scope s => store.HasScope scope ∧ s.WellShaped
  | stmts scope body last =>
    store.HasScope scope ∧ Program.WellShaped body ∧ last.LivesIn store
  | loop scope _ body last =>
    store.HasScope scope ∧ (body.isBlock ∧ body.WellShaped) ∧ last.LivesIn store
  | rounds scope _ items body last =>
    store.HasScope scope ∧ (body.isBlock ∧ body.WellShaped) ∧ last.LivesIn store ∧
      ∀ item ∈ items, item.LivesIn store

/-- What a task yields exists. -/
def Yields (store : Store) : (t : Task) → t.Yield → Prop
  | expr _ _, value | call _ _ _, value => Value.LivesIn store value
  | exprs _ _, values => ∀ value ∈ (values : List Value), value.LivesIn store
  | stmt _ _, flow | stmts _ _ _, flow | loop _ _ _ _, flow | rounds _ _ _ _ _, flow =>
    Flow.LivesIn store flow

/-- The scope that a task gives to a task that it starts: to the statements of a block, to a round
of a loop through items and to the body of a function. -/
def opens : Task → Task → Option ScopeId
  | stmt _ (.block _ _), stmts inner _ _ => some inner
  | rounds _ _ _ _ _, stmt inner _ => some inner
  | call _ _ _, stmts inner _ _ => some inner
  | _, _ => none

end Task

/-- What happens on the way of a run. -/
inductive Stage
  /-- A step was made. -/
  | stepped (m : Machine)
  /-- A task is started by another or, where there is none, by the program. -/
  | started (outer : Option Task) (t : Task) (m : Machine)
  /-- A task has ended. -/
  | ended (t : Task) (outcome : Outcome t.Yield) (m : Machine)
  /-- A source text has been run. -/
  | answered (outcome : Outcome Value) (m : Machine)

namespace Stage

/-- The machine that there is at a stage. -/
def machine : Stage → Machine
  | stepped m | started _ _ m | ended _ _ m | answered _ m => m

/-- The scope that is given to the block, the round of a loop or the call that begins at a stage. -/
def opened : Stage → Option ScopeId
  | started outer t _ => outer.bind fun starter => starter.opens t
  | _ => none

/-- What is started or has ended at a stage is run on what exists, or yields what exists. -/
def Sound : Stage → Prop
  | stepped _ => True
  | started _ t m => t.Ready m.store
  | ended t outcome m => ∀ found, outcome = .done found → t.Yields m.store found
  | answered outcome m => ∀ value, outcome = .done value → value.LivesIn m.store

end Stage

/-- The stages of following a plan that belongs to a task or to the program, where the stages inside
the tasks that it starts are given. -/
def Plan.stages (outer : Option Task) (start : (task : Task) → Run task.Yield)
    (inside : Task → Machine → List Stage) {α : Type} : Plan α → Machine → List Stage
  | step run, m => [.stepped (run m).2]
  | task t, m => .started outer t m :: inside t m ++ [.ended t (start t m).1 (start t m).2]
  | body _ t, m =>
    let deep := { m with depth := m.depth + 1 }
    let found := Run.deeper (start t) m
    .started outer t deep :: inside t deep ++ [.ended t found.1 found.2]
  | andThen first next, m =>
    first.stages outer start inside m ++
      match first.run start m with
      | (.done value, mid) => (next value).stages outer start inside mid
      | (.failed _, _) | (.crashed, _) | (.outOfFuel, _) => []

/-- The stages of the run of a task. -/
def Task.stages (limit : Nat) : Nat → Task → Machine → List Stage
  | 0, _, _ => []
  | fuel + 1, t, m => (t.plan limit).stages (some t) (run limit fuel) (stages limit fuel) m

/-! ## Along the stages -/

/-- From one machine to another, the machine grows at each stage to one with a well-formed store,
and every stage is sound. -/
inductive Along : Machine → List Stage → Machine → Prop
  /-- There is no stage on the way. -/
  | nil {m after : Machine} (becomes : m.Becomes after) : Along m [] after
  /-- There is a first stage. -/
  | cons {m after : Machine} {stage : Stage} {rest : List Stage}
    (becomes : m.Becomes stage.machine) (sound : stage.Sound)
    (onwards : Along stage.machine rest after) : Along m (stage :: rest) after

namespace Along

variable {m mid after : Machine} {stages others : List Stage}

/-- The machine may have grown before. -/
theorem of_becomes (h : m.Becomes mid) (hmid : Along mid stages after) : Along m stages after := by
  cases hmid with
  | nil becomes => exact .nil (h.trans becomes)
  | cons becomes sound onwards => exact .cons (h.trans becomes) sound onwards

/-- Stages one after the other. -/
theorem append (first : Along m stages mid) (second : Along mid others after) :
    Along m (stages ++ others) after := by
  induction first with
  | nil becomes => exact second.of_becomes becomes
  | cons becomes sound _ ih => exact .cons becomes sound (ih second)

/-- Along the stages the machine grows. -/
theorem becomes (h : Along m stages after) : m.Becomes after := by
  induction h with
  | nil becomes => exact becomes
  | cons becomes _ _ ih => exact becomes.trans ih

/-- At every stage the machine has grown, its store is well-formed, and the stage is sound. -/
theorem at_stage (h : Along m stages after) {stage : Stage} (hmem : stage ∈ stages) :
    m.Becomes stage.machine ∧ stage.Sound := by
  induction h with
  | nil => cases hmem
  | cons becomes sound _ ih =>
    rcases List.mem_cons.1 hmem with rfl | hmem
    · exact ⟨becomes, sound⟩
    · exact ⟨becomes.trans (ih hmem).1, (ih hmem).2⟩

/-- The machine grows from every stage to every later one. -/
theorem pairwise (h : Along m stages after) :
    (m :: stages.map Stage.machine).Pairwise Machine.Grows := by
  induction h with
  | nil => exact List.pairwise_singleton _ _
  | cons becomes sound onwards ih =>
    refine List.pairwise_cons.2 ⟨fun later hlater => ?_, ih⟩
    obtain ⟨stage, hmem, rfl⟩ := List.mem_map.1 hlater
    exact ((Along.cons becomes sound onwards).at_stage hmem).1.grows

/-- A task that is started on what exists and yields what exists, with the stages in between. -/
theorem task {outer : Option Task} {t : Task} {outcome : Outcome t.Yield} {deep last : Machine}
    (hdeep : m.Becomes deep) (hready : t.Ready deep.store) (inside : Along deep stages last)
    (hafter : last.Becomes after)
    (hyields : ∀ found, outcome = .done found → t.Yields after.store found) :
    Along m (.started outer t deep :: stages ++ [.ended t outcome after]) after := by
  refine .cons hdeep hready (inside.append ?_)
  exact .cons hafter hyields (.nil (.refl hafter.wellFormed))

/-- A source text that is answered by what exists, after the stages of its program. -/
theorem answered {outcome : Outcome Value} (h : Along m stages after)
    (hvalue : ∀ value, outcome = .done value → value.LivesIn after.store) :
    Along m (stages ++ [.answered outcome after]) after :=
  have hafter := Machine.Becomes.refl h.becomes.wellFormed
  h.append (.cons hafter hvalue (.nil hafter))

end Along

/-! ## Safe plans -/

namespace Plan

variable {α : Type} {m : Machine} {post : α → Machine → Prop}

/-- Followed from a machine, a plan makes steps that let it grow and keep its store well-formed, and
starts tasks on what exists; after it, something holds. Of what a task leaves, no more is known than
that the machine has grown and what it yields exists. -/
def Safe {α : Type} : Plan α → Machine → (α → Machine → Prop) → Prop
  | step run, m, post =>
    m.Becomes (run m).2 ∧ ∀ value, (run m).1 = .done value → post value (run m).2
  | task t, m, post | body _ t, m, post =>
    t.Ready m.store ∧ ∀ found after, m.Becomes after → t.Yields after.store found →
      post found after
  | andThen first next, m, post => first.Safe m fun value mid => (next value).Safe mid post

/-- A value may be yielded at once. -/
theorem safe_done (hm : m.store.WellFormed) {value : α} (h : post value m) :
    (step (Run.done value)).Safe m post := by
  refine ⟨.refl hm, ?_⟩
  rintro _ ⟨⟩
  exact h

/-- A question may be asked. -/
theorem safe_ask (hm : m.store.WellFormed) {span : Span} {question : Store → Except Cause α}
    (h : ∀ value, question m.store = .ok value → post value m) :
    (step (Run.ask span question)).Safe m post := by
  unfold Safe Run.ask
  cases hfound : question m.store with
  | ok value => exact safe_done hm (h value hfound)
  | error cause => exact ⟨.refl hm, nofun⟩

/-- The library may be called. -/
theorem safe_within {span : Span} {call : Machine → Native.Result}
    {post : Value → Machine → Prop} (hcall : Native.Sound m (call m))
    (h : ∀ value after, m.Becomes after → value.LivesIn after.store → post value after) :
    (step (Run.within span call)).Safe m post := by
  obtain ⟨hbecomes, hvalue⟩ := hcall
  unfold Safe Run.within
  generalize call m = found at hbecomes hvalue
  obtain ⟨answer, after⟩ := found
  cases answer with
  | ok value =>
    refine ⟨hbecomes, ?_⟩
    rintro _ ⟨⟩
    exact h value after hbecomes (hvalue value rfl)
  | error cause => exact ⟨hbecomes, nofun⟩
  | crash => exact ⟨hbecomes, nofun⟩

/-- The store may be changed to one that has grown and is well-formed. -/
theorem safe_change {f : Store → Store} {post : Unit → Machine → Prop}
    (hgrows : m.store.Grows (f m.store)) (hafter : (f m.store).WellFormed)
    (h : m.Becomes (m.mapStore f) → post () (m.mapStore f)) :
    (step (Run.change f)).Safe m post := by
  have hbecomes : m.Becomes (m.mapStore f) := .of_store hgrows hafter
  refine ⟨hbecomes, ?_⟩
  rintro _ ⟨⟩
  exact h hbecomes

/-- Something may be added to the store. -/
theorem safe_make {f : Store → α × Store} (hgrows : m.store.Grows (f m.store).2)
    (hafter : (f m.store).2.WellFormed)
    (h : ∀ after, m.Becomes after → after.store = (f m.store).2 → post (f m.store).1 after) :
    (step (Run.make f)).Safe m post := by
  have hbecomes : m.Becomes { m with store := (f m.store).2 } := .of_store hgrows hafter
  refine ⟨hbecomes, ?_⟩
  rintro _ ⟨⟩
  exact h _ hbecomes rfl

variable {start : (task : Task) → Run task.Yield} {inside : Task → Machine → List Stage}

/-- The runs of tasks, with the stages inside them, keep what exists. -/
def Upholds (start : (task : Task) → Run task.Yield) (inside : Task → Machine → List Stage) :
    Prop :=
  ∀ t m, m.store.WellFormed → t.Ready m.store →
    Along m (inside t m) (start t m).2 ∧
      ∀ found, (start t m).1 = .done found → t.Yields (start t m).2.store found

/-- Along the stages of a safe plan the machine grows, and what holds after the plan holds of what
it yields. -/
theorem Safe.along {plan : Plan α} (hstart : Upholds start inside) (outer : Option Task)
    (hm : m.store.WellFormed) (h : plan.Safe m post) :
    Along m (plan.stages outer start inside m) (plan.run start m).2 ∧
      ∀ value, (plan.run start m).1 = .done value → post value (plan.run start m).2 := by
  induction plan generalizing m with
  | step run => exact ⟨.cons h.1 trivial (.nil (.refl h.1.wellFormed)), h.2⟩
  | task t =>
    obtain ⟨hready, hpost⟩ := h
    obtain ⟨halong, hyields⟩ := hstart t m hm hready
    have hlast := halong.becomes
    exact ⟨.task (.refl hm) hready halong (.refl hlast.wellFormed) hyields,
      fun found hdone => hpost found _ hlast (hyields found hdone)⟩
  | body id t =>
    obtain ⟨hready, hpost⟩ := h
    obtain ⟨halong, hyields⟩ := hstart t { m with depth := m.depth + 1 } hm hready
    have hlast := halong.becomes
    exact ⟨.task (.count hm _) hready halong (.count hlast.wellFormed _) hyields,
      fun found hdone => hpost found _
        ((Machine.Becomes.count hm _).trans (hlast.trans (.count hlast.wellFormed _)))
        (hyields found hdone)⟩
  | andThen first next ihf ihn =>
    obtain ⟨halong, hnext⟩ := ihf hm h
    rw [stages, run, Run.andThen]
    generalize first.run start m = found at halong hnext
    obtain ⟨outcome, mid⟩ := found
    cases outcome with
    | done value =>
      obtain ⟨hrest, hpost⟩ := ihn value halong.becomes.wellFormed (hnext value rfl)
      exact ⟨halong.append hrest, hpost⟩
    | failed | crashed | outOfFuel =>
      refine ⟨halong.append (.nil (.refl halong.becomes.wellFormed)), ?_⟩
      rintro _ ⟨⟩

end Plan

/-! ## Tasks and programs -/

section Plans

variable {m : Machine} {scope parent : ScopeId}

/-- Binding parameters to arguments that exist lets a store grow and keeps it well-formed. -/
theorem Eval.grows_bindAll (inner : ScopeId) (params : List String) (args : List Value)
    {store : Store} (hstore : store.WellFormed) (hargs : ∀ arg ∈ args, arg.LivesIn store) :
    store.Grows (bindAll inner params args store) ∧
      (bindAll inner params args store).WellFormed := by
  unfold bindAll
  have hpairs : ∀ pair ∈ params.zip args, pair.2.LivesIn store :=
    fun pair hpair => hargs pair.2 (List.of_mem_zip hpair).2
  generalize params.zip args = pairs at hpairs
  clear hargs
  -- The store varies in the induction, for each parameter is bound in the store so far.
  induction pairs generalizing store with
  | nil => exact ⟨.refl store, hstore⟩
  | cons pair pairs ih =>
    obtain ⟨hpair, hpairs⟩ := List.forall_mem_cons.1 hpairs
    have hgrows := Store.grows_define store inner pair.1 pair.2
    obtain ⟨hrest, hwell⟩ := ih (hstore.define hpair inner pair.1)
      fun other hother => hgrows.livesIn (hpairs other hother)
    exact ⟨hgrows.trans hrest, hwell⟩

/-- A machine may make a scope inside one that exists and bind parameters to arguments there. -/
theorem Machine.becomes_opened (hm : m.store.WellFormed) (hparent : m.store.HasScope parent)
    (params : List String) {args : List Value} (hargs : ∀ arg ∈ args, arg.LivesIn m.store) :
    m.Becomes (m.opened parent params args) ∧
      (m.opened parent params args).store.HasScope m.store.nextScope := by
  have hchild := Store.grows_child m.store parent
  obtain ⟨hgrows, hwell⟩ := grows_bindAll m.store.nextScope params args (hm.child hparent)
    fun arg harg => hchild.livesIn (hargs arg harg)
  exact ⟨.of_store (hchild.trans hgrows) hwell,
    hgrows.hasScope (Store.hasScope_nextScope m.store parent)⟩

/-- The plan of an expression is safe in a scope that exists. -/
theorem Expr.safe_plan (hm : m.store.WellFormed) (hscope : m.store.HasScope scope) (e : Expr) :
    (e.plan scope).Safe m fun value after => value.LivesIn after.store := by
  cases e with
  | number | text | bool | null => exact Plan.safe_done hm trivial
  | name => exact Plan.safe_ask hm fun _ => hm.livesIn_of_get
  | binary op left right span =>
    refine ⟨hscope, fun _ _ h₁ _ => ⟨h₁.grows.store.hasScope hscope, fun _ _ h₂ _ => ?_⟩⟩
    exact Plan.safe_ask h₂.wellFormed fun _ => Store.livesIn_of_binary
  | logical op left right span =>
    refine ⟨hscope, fun value m₁ h₁ hvalue => ?_⟩
    dsimp only
    split
    · exact Plan.safe_done h₁.wellFormed hvalue
    · exact ⟨h₁.grows.store.hasScope hscope, fun _ _ _ hright => hright⟩
  | unary op operand span =>
    exact ⟨hscope, fun _ _ h₁ _ => Plan.safe_ask h₁.wellFormed fun _ => Store.livesIn_of_unary⟩
  | assign name value span =>
    refine ⟨hscope, fun found m₁ h₁ hfound => ?_⟩
    dsimp only
    rw [Run.attempt_assign]
    refine Plan.safe_change (Store.grows_define _ _ _ _) (h₁.wellFormed.define hfound _ _)
      fun h₂ => ?_
    exact Plan.safe_done h₂.wellFormed (h₂.grows.store.livesIn hfound)
  | call callee args span =>
    refine ⟨hscope, fun f m₁ h₁ hf =>
      ⟨h₁.grows.store.hasScope hscope, fun values m₂ h₂ hvalues => ?_⟩⟩
    exact ⟨⟨h₂.grows.store.livesIn hf, hvalues⟩, fun _ _ _ hfound => hfound⟩
  | methodCall object method args span =>
    refine ⟨hscope, fun found m₁ h₁ hfound =>
      ⟨h₁.grows.store.hasScope hscope, fun values m₂ h₂ hvalues => ?_⟩⟩
    exact Plan.safe_within
      (Method.call_sound h₂.wellFormed (h₂.grows.store.livesIn hfound) method hvalues)
      fun _ _ _ hvalue => hvalue
  | member object name span =>
    exact ⟨hscope, fun _ _ h₁ _ => Plan.safe_ask h₁.wellFormed fun _ => Store.livesIn_of_member⟩
  | array elements span =>
    refine ⟨hscope, fun values m₁ h₁ hvalues => ?_⟩
    refine Plan.safe_make (Store.grows_newArray _ _)
      (h₁.wellFormed.newArray fun item hitem => hvalues item (List.mem_toArray.1 hitem))
      fun m₂ h₂ hstore => Plan.safe_done h₂.wellFormed ?_
    simp [Value.LivesIn, hstore, Store.newArray]
  | index object place span =>
    refine ⟨hscope, fun _ _ h₁ _ => ⟨h₁.grows.store.hasScope hscope, fun _ _ h₂ _ => ?_⟩⟩
    exact Plan.safe_ask h₂.wellFormed fun _ => h₂.wellFormed.livesIn_of_index

/-- The items of an array that a loop goes through exist. -/
theorem Store.WellFormed.livesIn_of_loopItems {store : Store} (h : store.WellFormed)
    {value : Value} {items : List Value} (hitems : loopItems value store = .ok items) :
    ∀ item ∈ items, item.LivesIn store := by
  unfold loopItems at hitems
  split at hitems
  · rename_i id
    cases hitems
    exact fun item hmem => h.items id item (Array.mem_toList_iff.1 hmem)
  · cases hitems

/-- The plan of a statement is safe in a scope that exists. -/
theorem Stmt.safe_plan (hm : m.store.WellFormed) (hscope : m.store.HasScope scope) {s : Stmt}
    (hs : s.WellShaped) :
    (s.plan scope).Safe m fun flow after => flow.LivesIn after.store := by
  cases s with
  | expr e => exact ⟨hscope, fun _ _ h₁ hvalue => Plan.safe_done h₁.wellFormed hvalue⟩
  | block body span =>
    refine Plan.safe_make (Store.grows_child _ _) (hm.child hscope) fun m₁ h₁ hstore => ?_
    refine ⟨⟨?_, hs, trivial⟩, fun _ _ _ hflow => hflow⟩
    rw [hstore]
    exact Store.hasScope_nextScope m.store scope
  | cond condition yes no span =>
    refine ⟨hscope, fun value m₁ h₁ _ => ?_⟩
    have hscope₁ := h₁.grows.store.hasScope hscope
    dsimp only
    cases no with
    | none =>
      split
      · exact ⟨⟨hscope₁, hs.2.2⟩, fun _ _ _ hflow => hflow⟩
      · exact Plan.safe_done h₁.wellFormed trivial
    | some no =>
      split
      · exact ⟨⟨hscope₁, hs.2.2.1⟩, fun _ _ _ hflow => hflow⟩
      · exact ⟨⟨hscope₁, hs.2.2.2.2⟩, fun _ _ _ hflow => hflow⟩
  | whileLoop condition body span =>
    exact ⟨⟨hscope, hs.2, trivial⟩, fun _ _ _ hflow => hflow⟩
  | forLoop binder items body span =>
    refine ⟨hscope, fun value m₁ h₁ _ => Plan.safe_ask h₁.wellFormed fun found hfound => ?_⟩
    exact ⟨⟨h₁.grows.store.hasScope hscope, hs.2, trivial,
      h₁.wellFormed.livesIn_of_loopItems hfound⟩, fun _ _ _ hflow => hflow⟩
  | function name params body span =>
    refine Plan.safe_make (Store.grows_newClosure _ _) (hm.newClosure hscope hs)
      fun m₁ h₁ hstore => ?_
    have hlives : (Value.function (m.store.newClosure ⟨name, params, body, scope⟩).1).LivesIn
        m₁.store := by
      simp [Value.LivesIn, hstore, Store.newClosure]
    refine Plan.safe_change (Store.grows_define _ _ _ _) (h₁.wellFormed.define hlives _ _)
      fun h₂ => ?_
    exact Plan.safe_done h₂.wellFormed (h₂.grows.store.livesIn hlives)
  | giveBack value span =>
    cases value with
    | none => exact Plan.safe_done hm trivial
    | some e => exact ⟨hscope, fun _ _ h₁ hvalue => Plan.safe_done h₁.wellFormed hvalue⟩
  | importing => exact Plan.safe_done hm trivial

/-- What follows a statement is safe, if it is so after a value. -/
theorem Flow.safe_plan (hm : m.store.WellFormed) {flow : Flow} (hflow : flow.LivesIn m.store)
    {go : Value → Plan Flow}
    (h : ∀ value, value.LivesIn m.store →
      (go value).Safe m fun flow after => flow.LivesIn after.store) :
    (flow.plan go).Safe m fun flow after => flow.LivesIn after.store := by
  cases flow with
  | normal value => exact h value hflow
  | returned value => exact Plan.safe_done hm hflow

/-- The plan of a call is safe where what is called exists. -/
theorem Value.safe_plan (hm : m.store.WellFormed) (limit : Nat) {args : List Value}
    (hargs : ∀ arg ∈ args, arg.LivesIn m.store) (span : Span) (callee : Value) :
    (callee.plan limit args span).Safe m fun value after => value.LivesIn after.store := by
  cases callee with
  | native f => exact Plan.safe_within (f.call_sound hm hargs) fun _ _ _ hvalue => hvalue
  | function id =>
    rcases enter_eq limit id args span m with ⟨fault, hfailed⟩ | ⟨f, hf, -, hdone⟩
    · refine ⟨?_, fun found hfound => ?_⟩
      · rw [hfailed]
        exact .refl hm
      · rw [hfailed] at hfound
        cases hfound
    · obtain ⟨hopened, hinner⟩ := m.becomes_opened hm (hm.captures hf) f.params hargs
      refine ⟨?_, fun found hfound => ?_⟩
      · rw [hdone]
        exact hopened
      · rw [hdone] at hfound ⊢
        cases hfound
        refine ⟨⟨hinner, hm.shapes hf, trivial⟩, fun flow m₂ h₂ hflow => ?_⟩
        refine Plan.safe_done h₂.wellFormed ?_
        cases flow with
        | normal value => trivial
        | returned value => exact hflow
  | _ => exact Plan.safe_ask hm fun _ => nofun

/-- The plan of a task is safe where what it is run on exists. -/
theorem Task.safe_plan (hm : m.store.WellFormed) (limit : Nat) {t : Task} (h : t.Ready m.store) :
    (t.plan limit).Safe m fun found after => t.Yields after.store found := by
  cases t with
  | expr scope e => exact Expr.safe_plan hm h e
  | exprs scope es =>
    cases es with
    | nil => exact Plan.safe_done hm nofun
    | cons e es =>
      refine ⟨h, fun value m₁ h₁ hvalue =>
        ⟨h₁.grows.store.hasScope h, fun values m₂ h₂ hvalues => ?_⟩⟩
      exact Plan.safe_done h₂.wellFormed
        (List.forall_mem_cons.2 ⟨h₂.grows.store.livesIn hvalue, hvalues⟩)
  | call callee args span => exact Value.safe_plan hm limit h.2 span callee
  | stmt scope s => exact Stmt.safe_plan hm h.1 h.2
  | stmts scope body last =>
    cases body with
    | nil => exact Plan.safe_done hm h.2.2
    | cons s body =>
      refine ⟨⟨h.1, h.2.1.1⟩, fun flow m₁ h₁ hflow => ?_⟩
      exact Flow.safe_plan h₁.wellFormed hflow fun value hvalue =>
        ⟨⟨h₁.grows.store.hasScope h.1, h.2.1.2, hvalue⟩, fun _ _ _ hlast => hlast⟩
  | loop scope condition body last =>
    refine ⟨h.1, fun value m₁ h₁ _ => ?_⟩
    have hscope := h₁.grows.store.hasScope h.1
    dsimp only
    split
    · refine ⟨⟨hscope, h.2.1.2⟩, fun flow m₂ h₂ hflow => ?_⟩
      exact Flow.safe_plan h₂.wellFormed hflow fun value hvalue =>
        ⟨⟨h₂.grows.store.hasScope hscope, h.2.1, hvalue⟩, fun _ _ _ hlast => hlast⟩
    · exact Plan.safe_done h₁.wellFormed (h₁.grows.store.livesIn h.2.2)
  | rounds scope binder items body last =>
    cases items with
    | nil => exact Plan.safe_done hm h.2.2.1
    | cons item items =>
      obtain ⟨hscope, hbody, -, hitems⟩ := h
      obtain ⟨hitem, hitems⟩ := List.forall_mem_cons.1 hitems
      refine Plan.safe_make (Store.grows_child _ _) (hm.child hscope) fun m₁ h₁ hstore => ?_
      refine Plan.safe_change (Store.grows_define _ _ _ _)
        (h₁.wellFormed.define (h₁.grows.store.livesIn hitem) _ _) fun h₂ => ?_
      have hinner : m₁.store.HasScope (m.store.child scope).1 := by
        rw [hstore]
        exact Store.hasScope_nextScope m.store scope
      refine ⟨⟨h₂.grows.store.hasScope hinner, hbody.2⟩, fun flow m₃ h₃ hflow => ?_⟩
      have hgrows := (h₁.trans (h₂.trans h₃)).grows.store
      exact Flow.safe_plan h₃.wellFormed hflow fun value hvalue =>
        ⟨⟨hgrows.hasScope hscope, hbody, hvalue, fun other hother =>
          hgrows.livesIn (hitems other hother)⟩, fun _ _ _ hlast => hlast⟩

/-- The plan of a program is safe in the outermost scope. -/
theorem Program.safe_plan (hm : m.store.WellFormed) {last : Value} (hlast : last.LivesIn m.store)
    {program : Program} (h : program.WellShaped) :
    (program.plan last).Safe m fun value after => value.LivesIn after.store := by
  induction program generalizing m last with
  | nil => exact Plan.safe_done hm hlast
  | cons s rest ih =>
    obtain ⟨scope, hscope, -⟩ := hm.outermost
    refine ⟨⟨Store.hasScope_iff.2 ⟨scope, hscope⟩, h.1⟩, fun flow m₁ h₁ hflow => ?_⟩
    cases flow with
    | normal value => exact ih h₁.wellFormed hflow h.2
    | returned value => exact ⟨.refl h₁.wellFormed, nofun⟩

end Plans

/-- Along the run of a task the machine grows, and what the task yields exists. -/
theorem Task.along (limit fuel : Nat) : Plan.Upholds (run limit fuel) (stages limit fuel) := by
  -- The tasks that a task starts have one unit of fuel less.
  induction fuel with
  | zero =>
    intro t m hm _
    rw [run_zero]
    exact ⟨.nil (.refl hm), nofun⟩
  | succ fuel ih =>
    intro t m hm h
    rw [run_succ]
    exact (safe_plan hm limit h).along ih (some t) hm

/-- Along the run of a well-shaped program the machine grows, and what the program yields exists. -/
theorem Eval.along_program (limit fuel : Nat) {program : Program} (h : program.WellShaped)
    {m : Machine} (hm : m.store.WellFormed) :
    Along m ((program.plan .null).stages none (Task.run limit fuel) (Task.stages limit fuel) m)
        (runProgram limit fuel .null program m).2 ∧
      ∀ value, (runProgram limit fuel .null program m).1 = .done value →
        value.LivesIn (runProgram limit fuel .null program m).2.store := by
  have hnull : Value.null.LivesIn m.store := trivial
  rw [runProgram_eq_plan]
  exact (Program.safe_plan hm hnull h).along (Task.along limit fuel) none hm

end QuantumScript
