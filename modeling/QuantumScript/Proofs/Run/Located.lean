import QuantumScript.Proofs.Parser.Places
import QuantumScript.Proofs.Run.Halting
import QuantumScript.Proofs.Run.Plan

/-!
# Where faults arise

A fault arises at a region of the part of the program that is run, or of the body of a closure. So
where something holds of all regions in a program and in the bodies of the closures that it is run
with, it holds of the region of every fault, and every fault has one (`Eval.runProgram_located`).
Closures are made from parts of the program, so the runs preserve what is asked of them.

The one change of a store that would fail at no region, overwriting a name that is bound nowhere, is
never made, since an assignment first tests for the name.
-/

namespace QuantumScript

open Eval

variable {P : Span → Prop}

/-- Something holds everywhere in the parts of a program that a task runs. -/
def Task.Everywhere (P : Span → Prop) : Task → Prop
  | expr _ e => e.Everywhere P
  | exprs _ es => EverywhereIn P es
  | call _ _ span => P span
  | stmt _ s => s.Everywhere P
  | stmts _ body _ => EverywhereAmong P body
  | loop _ condition body _ => condition.Everywhere P ∧ body.Everywhere P
  | rounds _ _ _ body _ => body.Everywhere P

/-- Something holds everywhere in the bodies of the closures of a machine. -/
def Machine.Everywhere (P : Span → Prop) (m : Machine) : Prop :=
  ∀ f ∈ m.store.closures, EverywhereAmong P f.body

namespace Run

variable {α β : Type}

/-- From a machine with something everywhere in its closures, a run leaves such a machine, and
something holds of the region of its fault, if it fails. -/
def Located (P : Span → Prop) (run : Run α) : Prop :=
  ∀ m, m.Everywhere P → (run m).2.Everywhere P ∧
    ∀ fault, (run m).1 = .failed fault → fault.Located P

/-- A run that yields a value at once does not fail. -/
theorem located_done (value : α) : (Run.done value).Located P :=
  fun _ hm => ⟨hm, nofun⟩

/-- A run without fuel does not fail. -/
theorem located_outOfFuel : (Run.outOfFuel : Run α).Located P :=
  fun _ hm => ⟨hm, nofun⟩

/-- A run that fails does so at its region. -/
theorem located_failed (cause : Cause) {span : Span} (hs : P span) :
    (Run.failed cause span : Run α).Located P := by
  refine fun _ hm => ⟨hm, ?_⟩
  rintro _ ⟨⟩
  exact ⟨span, rfl, hs⟩

/-- A question without an answer fails at its region. -/
theorem located_ask {span : Span} (hs : P span) (question : Store → Except Cause α) :
    (Run.ask span question).Located P := by
  intro m hm
  unfold ask
  cases question m.store with
  | ok value => exact ⟨hm, nofun⟩
  | error cause => exact located_failed cause hs m hm

/-- A call of the library fails at its region, and leaves the closures as they are. -/
theorem located_within {span : Span} (hs : P span) {call : Machine → Native.Result}
    (h : Native.Modest call) : (Run.within span call).Located P := by
  intro m hm
  have hafter : (call m).2.Everywhere P := by
    unfold Machine.Everywhere
    rw [(h.leaves m).2.1]
    exact hm
  unfold within
  generalize call m = found at hafter
  obtain ⟨answer, after⟩ := found
  cases answer with
  | ok value => exact ⟨hafter, nofun⟩
  | error cause => exact located_failed cause hs after hafter
  | crash => exact ⟨hafter, nofun⟩

/-- A change of the store that leaves the closures does not fail. -/
theorem located_change {f : Store → Store} (h : ∀ store, (f store).closures = store.closures) :
    (Run.change f).Located P := by
  refine fun m hm => ⟨?_, nofun⟩
  show ∀ g ∈ (f m.store).closures, EverywhereAmong P g.body
  rw [h]
  exact hm

/-- Binding a name does not fail. -/
theorem located_define (scope : ScopeId) (name : String) (value : Value) :
    (Run.change fun store => store.define scope name value).Located P :=
  located_change fun _ => rfl

/-- An assignment does not fail. -/
theorem located_assign (scope : ScopeId) (name : String) (value : Value) :
    (Run.attempt fun store => store.assign scope name value).Located P := by
  rw [attempt_assign]
  exact located_change fun _ => rfl

/-- Adding something to the store that is no closure does not fail. -/
theorem located_make {f : Store → α × Store} (h : ∀ store, (f store).2.closures = store.closures) :
    (Run.make f).Located P := by
  refine fun m hm => ⟨?_, nofun⟩
  show ∀ g ∈ (f m.store).2.closures, EverywhereAmong P g.body
  rw [h]
  exact hm

/-- Adding a closure whose body has something everywhere does not fail. -/
theorem located_newClosure {f : Closure} (hf : EverywhereAmong P f.body) :
    (Run.make fun store => store.newClosure f).Located P := by
  refine fun m hm => ⟨fun g hg => ?_, nofun⟩
  rcases Array.mem_push.1 hg with hg | rfl
  · exact hm g hg
  · exact hf

/-- Entering a function fails at the region of the call. -/
theorem located_enter (limit : Nat) (id : ClosureId) (args : List Value) {span : Span}
    (hs : P span) : (enter limit id args span).Located P := by
  intro m hm
  unfold enter
  cases m.store.closure? id with
  | none => exact located_failed _ hs m hm
  | some f =>
    dsimp only
    split
    · exact located_failed _ hs m hm
    · split
      · exact located_failed _ hs m hm
      · refine ⟨?_, nofun⟩
        show ∀ g ∈ (bindAll _ f.params args _).closures, EverywhereAmong P g.body
        rw [Machine.Tame.closures_bindAll]
        exact hm

/-- One run after another fails where one of them does. What follows a run may be asked to do so
only after the values that the run yields. -/
theorem Located.andThen_of_done {first : Run α} {next : α → Run β} (hf : first.Located P)
    (hn : ∀ m value mid, m.Everywhere P → first m = (.done value, mid) →
      (next value).Located P) : (first.andThen next).Located P := by
  intro m hm
  obtain ⟨hmid, hfault⟩ := hf m hm
  unfold Run.andThen
  cases hfirst : first m with
  | mk outcome mid =>
    rw [hfirst] at hmid hfault
    cases outcome with
    | done value => exact hn m value mid hm hfirst mid hmid
    | failed fault =>
      refine ⟨hmid, ?_⟩
      rintro _ ⟨⟩
      exact hfault fault rfl
    | crashed => exact ⟨hmid, nofun⟩
    | outOfFuel => exact ⟨hmid, nofun⟩

/-- One run after another fails where one of them does. -/
theorem Located.andThen {first : Run α} {next : α → Run β} (hf : first.Located P)
    (hn : ∀ value, (next value).Located P) : (first.andThen next).Located P :=
  hf.andThen_of_done fun _ value _ _ _ => hn value

/-- A run that counts as one more function body fails where it does. -/
theorem Located.deeper {run : Run α} (h : run.Located P) : (Run.deeper run).Located P :=
  fun m hm => h { m with depth := m.depth + 1 } hm

end Run

/-! ## Tasks and programs -/

section Plans

variable {start : (task : Task) → Run task.Yield}

/-- An expression fails at one of its regions, if the tasks that it starts do so. -/
theorem Expr.located_plan (ih : ∀ t, t.Everywhere P → (start t).Located P) (scope : ScopeId)
    {e : Expr} (h : e.Everywhere P) : ((e.plan scope).run start).Located P := by
  cases e with
  | number | text | bool | null => exact Run.located_done _
  | name => exact Run.located_ask h _
  | binary op left right span =>
    exact (ih (.expr scope left) h.1).andThen fun _ => (ih (.expr scope right) h.2.1).andThen
      fun _ => Run.located_ask h.2.2 _
  | logical op left right span =>
    refine (ih (.expr scope left) h.1).andThen fun value => ?_
    dsimp only
    split
    · exact Run.located_done _
    · exact ih (.expr scope right) h.2.1
  | unary op operand span =>
    exact (ih (.expr scope operand) h.1).andThen fun _ => Run.located_ask h.2 _
  | assign name value span =>
    exact (ih (.expr scope value) h.1).andThen fun found =>
      (Run.located_assign scope name found).andThen fun _ => Run.located_done _
  | call callee args span =>
    exact (ih (.expr scope callee) h.1).andThen fun f =>
      (ih (.exprs scope args) h.2.1).andThen fun values => ih (.call f values span) h.2.2
  | methodCall object method args span =>
    exact (ih (.expr scope object) h.1).andThen fun found =>
      (ih (.exprs scope args) h.2.1).andThen fun values =>
        Run.located_within h.2.2 (.inl (Method.call_oblivious found method values))
  | member object name span =>
    exact (ih (.expr scope object) h.1).andThen fun _ => Run.located_ask h.2 _
  | array elements span =>
    exact (ih (.exprs scope elements) h.1).andThen fun _ =>
      (Run.located_make fun _ => rfl).andThen fun _ => Run.located_done _
  | index object place span =>
    exact (ih (.expr scope object) h.1).andThen fun _ => (ih (.expr scope place) h.2.1).andThen
      fun _ => Run.located_ask h.2.2 _

/-- A statement fails at one of its regions, if the tasks that it starts do so. -/
theorem Stmt.located_plan (ih : ∀ t, t.Everywhere P → (start t).Located P) (scope : ScopeId)
    {s : Stmt} (h : s.Everywhere P) : ((s.plan scope).run start).Located P := by
  cases s with
  | expr e => exact (ih (.expr scope e) h).andThen fun _ => Run.located_done _
  | block body span =>
    exact (Run.located_make fun _ => rfl).andThen fun inner => ih (.stmts inner body .null) h.1
  | cond condition yes no span =>
    cases no with
    | none =>
      refine (ih (.expr scope condition) h.1).andThen fun value => ?_
      dsimp only
      split
      · exact ih (.stmt scope yes) h.2.1
      · exact Run.located_done _
    | some no =>
      refine (ih (.expr scope condition) h.1).andThen fun value => ?_
      dsimp only
      split
      · exact ih (.stmt scope yes) h.2.1
      · exact ih (.stmt scope no) h.2.2.1
  | whileLoop condition body span => exact ih (.loop scope condition body .null) ⟨h.1, h.2.1⟩
  | forLoop binder items body span =>
    exact (ih (.expr scope items) h.1).andThen fun _ => (Run.located_ask h.2.2 _).andThen
      fun found => ih (.rounds scope binder found body .null) h.2.1
  | function name params body span =>
    exact (Run.located_newClosure h.1).andThen fun id =>
      (Run.located_define scope name (.function id)).andThen fun _ => Run.located_done _
  | giveBack value span =>
    cases value with
    | none => exact Run.located_done _
    | some e => exact (ih (.expr scope e) h.1).andThen fun _ => Run.located_done _
  | importing => exact Run.located_done _

/-- What follows a statement fails where it does after a value. -/
theorem Flow.located_plan {go : Value → Plan Flow} (h : ∀ value, ((go value).run start).Located P)
    (flow : Flow) : ((flow.plan go).run start).Located P := by
  cases flow with
  | normal value => exact h value
  | returned value => exact Run.located_done _

/-- A call fails at its region or in the body of a closure, if the tasks that it starts do so. -/
theorem Value.located_plan (ih : ∀ t, t.Everywhere P → (start t).Located P) (limit : Nat)
    (args : List Value) {span : Span} (hs : P span) (callee : Value) :
    ((callee.plan limit args span).run start).Located P := by
  cases callee with
  | native f => exact Run.located_within hs (f.call_modest args)
  | function id =>
    -- The body that is entered is that of a closure.
    refine (Run.located_enter limit id args hs).andThen_of_done fun m found mid hm hdone => ?_
    obtain ⟨f, hf, -, -, rfl, -⟩ := enter_eq_done.1 hdone
    have hbody : EverywhereAmong P f.body := hm f (Array.mem_of_getElem? hf)
    exact (ih (.stmts m.store.nextScope f.body .null) hbody).deeper.andThen fun _ =>
      Run.located_done _
  | _ => exact Run.located_ask hs _

/-- A task fails at one of its regions, if the tasks that it starts do so. -/
theorem Task.located_plan (ih : ∀ t, t.Everywhere P → (start t).Located P) (limit : Nat) {t : Task}
    (h : t.Everywhere P) : ((t.plan limit).run start).Located P := by
  cases t with
  | expr scope e => exact Expr.located_plan ih scope h
  | exprs scope es =>
    cases es with
    | nil => exact Run.located_done _
    | cons e es =>
      exact (ih (.expr scope e) h.1).andThen fun _ => (ih (.exprs scope es) h.2).andThen fun _ =>
        Run.located_done _
  | call callee args span => exact Value.located_plan ih limit args h callee
  | stmt scope s => exact Stmt.located_plan ih scope h
  | stmts scope body last =>
    cases body with
    | nil => exact Run.located_done _
    | cons s body =>
      exact (ih (.stmt scope s) h.1).andThen
        (Flow.located_plan fun value => ih (.stmts scope body value) h.2)
  | loop scope condition body last =>
    refine (ih (.expr scope condition) h.1).andThen fun value => ?_
    dsimp only
    split
    · exact (ih (.stmt scope body) h.2).andThen
        (Flow.located_plan fun value => ih (.loop scope condition body value) h)
    · exact Run.located_done _
  | rounds scope binder items body last =>
    cases items with
    | nil => exact Run.located_done _
    | cons item items =>
      refine (Run.located_make fun _ => rfl).andThen fun inner => ?_
      exact (Run.located_define inner binder item).andThen fun _ =>
        (ih (.stmt inner body) h).andThen
          (Flow.located_plan fun value => ih (.rounds scope binder items body value) h)

/-- A program fails at one of its regions, if the tasks that it starts do so. -/
theorem Program.located_plan (ih : ∀ t, t.Everywhere P → (start t).Located P) (last : Value)
    {program : Program} (h : EverywhereAmong P program) :
    ((program.plan last).run start).Located P := by
  induction program generalizing last with
  | nil => exact Run.located_done _
  | cons s rest hrest =>
    refine (ih (.stmt Store.globalScope s) h.1).andThen fun flow => ?_
    cases flow with
    | normal value => exact hrest value h.2
    | returned value => exact Run.located_failed _ h.1.span

end Plans

/-- A task fails at a region of what it runs or of the body of a closure. -/
theorem Task.located (limit fuel : Nat) {t : Task} (h : t.Everywhere P) :
    (t.run limit fuel).Located P := by
  -- The tasks that a task starts have one unit of fuel less.
  induction fuel generalizing t with
  | zero =>
    rw [run_zero]
    exact Run.located_outOfFuel
  | succ fuel ih =>
    rw [run_succ]
    exact located_plan (fun _ => ih) limit h

/-- A program fails at one of its regions or of the body of a closure. -/
theorem Eval.runProgram_located (limit fuel : Nat) (last : Value) {program : Program}
    (h : EverywhereAmong P program) : (runProgram limit fuel last program).Located P := by
  rw [runProgram_eq_plan]
  exact Program.located_plan (fun _ => Task.located limit fuel) last h

/-- A fault has a region, which lies in a source text. -/
def Fault.LiesIn (source : String) (fault : Fault) : Prop :=
  fault.Located (Span.Within source.utf8ByteSize)

/-- Every fault of a source text that is run in a fresh session lies in the text, with however much
fuel it is run. An assignment never fails. -/
theorem Session.fault_liesIn (natives : List Native) (limit fuel : Nat) (input : List String)
    (dice : Dice) (source : String) :
    (∀ fault, ((start natives limit fuel input dice).eval source).1 = .failed fault →
      fault.LiesIn source) ∧
    ∀ (store : Store) (scope : ScopeId) (name : String) (value : Value),
      ∃ after, store.assign scope name value = .ok after := by
  obtain ⟨hfault, hprogram⟩ := parseSource_located source
  have hmachine : (start natives limit fuel input dice).machine.Everywhere
      (Span.Within source.utf8ByteSize) := by
    intro f hf
    have hclosures : (start natives limit fuel input dice).machine.store.closures = #[] :=
      closures_libraryStore natives
    rw [hclosures] at hf
    exact absurd hf (Array.not_mem_empty f)
  refine ⟨fun fault h => ?_, fun store scope name value => ⟨_, store.assign_eq ..⟩⟩
  cases hparse : parseSource source with
  | error wrong =>
    rw [eval, hparse] at h
    cases h
    exact hfault _ hparse
  | ok program =>
    rw [eval, hparse] at h
    have hlocated := runProgram_located limit fuel .null (hprogram program hparse)
    exact (hlocated _ hmachine).2 fault h

/-- The call of `null` in a text fails where the call stands. -/
theorem Session.fault_liesIn_call :
    ((start [] 8 8 [] .zeros).eval "null()").1 =
        .failed ⟨.notCallable "null", some ⟨0, 6, 1, 1⟩⟩ ∧
      Fault.LiesIn "null()" ⟨.notCallable "null", some ⟨0, 6, 1, 1⟩⟩ := by
  have htokens : tokenize "null()" =
      .ok ⟨[⟨.keyword .null, ⟨0, 4, 1, 1⟩, "null"⟩, ⟨.symbol .openParen, ⟨4, 5, 1, 5⟩, "("⟩,
        ⟨.symbol .closeParen, ⟨5, 6, 1, 6⟩, ")"⟩], ⟨6, 6, 1, 7⟩⟩ := by
    with_unfolding_all rfl
  have hparse : parseSource "null()" =
      .ok [.expr (.call (.null ⟨0, 4, 1, 1⟩) [] ⟨0, 6, 1, 1⟩)] := by
    rw [parseSource, htokens]
    show parse _ = _
    cbv
  have hfailed : ((start [] 8 8 [] .zeros).eval "null()").1 =
      .failed ⟨.notCallable "null", some ⟨0, 6, 1, 1⟩⟩ := by
    rw [eval, hparse]
    rfl
  exact ⟨hfailed, (fault_liesIn [] 8 8 [] .zeros "null()").1 _ hfailed⟩

end QuantumScript
