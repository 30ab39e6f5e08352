import QuantumScript.Proofs.Run.Located

/-!
# Where code comes from

A session runs many texts, and a function that one of them declares may be called by the next. An
`Account` says which text the code of each closure was read from, and which text the code that is
being run was read from. It is kept beside the run: new closures come from the text that is being
run, and the body of a function from the text of its closure. The run itself knows nothing of it.

Where a run fails, it does so at a region of the text that the account names (`Task.traced`,
`Eval.traced_program`).
-/

namespace QuantumScript

open Eval

/-- Which texts code was read from. -/
structure Account where
  /-- The text of each closure, in the order in which they were made. -/
  closures : List String
  /-- The text of the code that is being run. -/
  current : String

namespace Account

/-- Closures that a machine has beyond those of an account come from the text that is being run. -/
def noting (account : Account) (m : Machine) : Account :=
  { account with
    closures := account.closures ++
      List.replicate (m.store.closures.size - account.closures.length) account.current }

/-- The body of a function comes from the text of its closure. -/
def entering (account : Account) (id : ClosureId) : Account :=
  { account with current := account.closures.getD id.index account.current }

/-- After a task, the code that started it is run again. -/
def returning (account : Account) (outer : Account) : Account :=
  { account with current := outer.current }

/-- The closures of a machine are those of an account, and in each of them something holds
everywhere that depends on its text. -/
structure Fits (P : String → Span → Prop) (account : Account) (m : Machine) : Prop where
  /-- The account has the text of each closure. -/
  length_eq : account.closures.length = m.store.closures.size
  /-- In the body of each closure something holds everywhere. -/
  bodies : ∀ {id : ClosureId} {f : Closure} {text : String}, m.store.closure? id = some f →
    account.closures[id.index]? = some text → EverywhereAmong (P text) f.body

end Account

/-- The account after a plan is followed. If the plan fails, it tells in which text. -/
def Plan.account (start : (task : Task) → Run task.Yield)
    (inside : Task → Machine → Account → Account) {α : Type} :
    Plan α → Machine → Account → Account
  | step run, m, account => account.noting (run m).2
  | task t, m, account => inside t m account
  | body id t, m, account => inside t { m with depth := m.depth + 1 } (account.entering id)
  | andThen first next, m, account =>
    let found := first.account start inside m account
    match first.run start m with
    | (.done value, mid) => (next value).account start inside mid (found.returning account)
    | (.failed _, _) | (.crashed, _) | (.outOfFuel, _) => found

/-- The account after the run of a task. -/
def Task.account (limit : Nat) : Nat → Task → Machine → Account → Account
  | 0, _, _, known => known
  | fuel + 1, t, m, known => (t.plan limit).account (run limit fuel) (account limit fuel) m known

/-! ## Steps -/

/-- A machine has more closures than another, and in the new ones something holds everywhere. -/
def Machine.Adds (Q : Span → Prop) (m after : Machine) : Prop :=
  ∃ added : Array Closure, after.store.closures = m.store.closures ++ added ∧
    ∀ f ∈ added, EverywhereAmong Q f.body

/-- A machine with the same closures has no new ones. -/
theorem Machine.Adds.of_closures_eq {Q : Span → Prop} {m after : Machine}
    (h : after.store.closures = m.store.closures) : m.Adds Q after :=
  ⟨#[], by simpa using h, nofun⟩

namespace Run

variable {α : Type} {Q : Span → Prop}

/-- Something holds of the region of a run's fault and everywhere in the closures that it makes. -/
def Sited (Q : Span → Prop) (run : Run α) : Prop :=
  ∀ m, (∀ fault, (run m).1 = .failed fault → fault.Located Q) ∧ m.Adds Q (run m).2

/-- A run that yields a value at once does not fail. -/
theorem sited_done (value : α) : (Run.done value).Sited Q :=
  fun _ => ⟨nofun, .of_closures_eq rfl⟩

/-- A change of the store that leaves the closures does not fail. -/
theorem sited_change {f : Store → Store} (h : ∀ store, (f store).closures = store.closures) :
    (Run.change f).Sited Q :=
  fun m => ⟨nofun, .of_closures_eq (h m.store)⟩

/-- Adding something to the store that is no closure does not fail. -/
theorem sited_make {f : Store → α × Store} (h : ∀ store, (f store).2.closures = store.closures) :
    (Run.make f).Sited Q :=
  fun m => ⟨nofun, .of_closures_eq (h m.store)⟩

/-- A run that fails does so at its region. -/
theorem sited_failed (cause : Cause) {span : Span} (hs : Q span) :
    (Run.failed cause span : Run α).Sited Q := by
  refine fun m => ⟨?_, .of_closures_eq rfl⟩
  rintro _ ⟨⟩
  exact ⟨span, rfl, hs⟩

/-- A question without an answer fails at its region. -/
theorem sited_ask {span : Span} (hs : Q span) (question : Store → Except Cause α) :
    (Run.ask span question).Sited Q := by
  intro m
  unfold ask
  cases question m.store with
  | ok value => exact sited_done value m
  | error cause => exact sited_failed cause hs m

/-- A call of the library fails at its region. -/
theorem sited_within {span : Span} (hs : Q span) {call : Machine → Native.Result}
    (h : Native.Modest call) : (Run.within span call).Sited Q := by
  intro m
  have hclosures := (h.leaves m).2.1
  unfold within
  generalize call m = found at hclosures
  obtain ⟨answer, after⟩ := found
  cases answer with
  | ok value => exact ⟨nofun, .of_closures_eq hclosures⟩
  | error cause =>
    refine ⟨?_, .of_closures_eq hclosures⟩
    rintro _ ⟨⟩
    exact ⟨span, rfl, hs⟩
  | crash => exact ⟨nofun, .of_closures_eq hclosures⟩

/-- An assignment does not fail. -/
theorem sited_assign (scope : ScopeId) (name : String) (value : Value) :
    (Run.attempt fun store => store.assign scope name value).Sited Q := by
  rw [attempt_assign]
  exact sited_change fun _ => rfl

/-- A new closure comes from the text that is being run. -/
theorem sited_newClosure {f : Closure} (hf : EverywhereAmong Q f.body) :
    (Run.make fun store => store.newClosure f).Sited Q := by
  refine fun m => ⟨nofun, #[f], Array.push_eq_append, fun g hg => ?_⟩
  rw [Array.mem_singleton.1 hg]
  exact hf

/-- Entering a function fails at the region of the call. -/
theorem sited_enter (limit : Nat) (id : ClosureId) (args : List Value) {span : Span}
    (hs : Q span) : (enter limit id args span).Sited Q := by
  intro m
  unfold enter
  cases m.store.closure? id with
  | none => exact sited_failed _ hs m
  | some f =>
    dsimp only
    split
    · exact sited_failed _ hs m
    · split
      · exact sited_failed _ hs m
      · exact ⟨nofun, .of_closures_eq (Machine.Tame.closures_bindAll _ _ _ _)⟩

end Run

/-! ## Plans -/

namespace Account

variable {P : String → Span → Prop} {account : Account} {m after : Machine}

/-- An account fits whatever text is being run. -/
theorem Fits.of_closures_eq {other : Account} (h : account.Fits P m)
    (hclosures : other.closures = account.closures) : other.Fits P m :=
  ⟨hclosures ▸ h.length_eq, fun hf htext => h.bodies hf (hclosures ▸ htext)⟩

/-- New closures that come from the text that is being run are noted. -/
theorem Fits.noting (h : account.Fits P m) (hadds : m.Adds (P account.current) after) :
    (account.noting after).Fits P after := by
  obtain ⟨added, hclosures, hadded⟩ := hadds
  have hlength := h.length_eq
  refine ⟨?_, fun {id f text} hf htext => ?_⟩
  · simp only [Account.noting, hclosures, List.length_append, List.length_replicate,
      Array.size_append]
    omega
  · rw [Store.closure?, hclosures] at hf
    by_cases hlt : id.index < m.store.closures.size
    · rw [Array.getElem?_append_left hlt] at hf
      rw [Account.noting, List.getElem?_append_left (by omega)] at htext
      exact h.bodies hf htext
    · rw [Array.getElem?_append_right (by omega)] at hf
      rw [Account.noting, List.getElem?_append_right (by omega)] at htext
      have hcurrent := List.eq_of_mem_replicate (List.mem_of_getElem? htext)
      rw [hcurrent]
      exact hadded f (Array.mem_of_getElem? hf)

end Account

namespace Plan

variable {α : Type} {plan : Plan α} {P : String → Span → Prop}
  {start : (task : Task) → Run task.Yield} {inside : Task → Machine → Account → Account}
  {account : Account} {m : Machine}

/-- Something holds of all regions where the steps of a plan fail and everywhere in what it starts;
it enters no function. -/
def Sited (Q : Span → Prop) {α : Type} : Plan α → Prop
  | step run => run.Sited Q
  | task t => t.Everywhere Q
  | body _ _ => False
  | andThen first next => first.Sited Q ∧ ∀ value, (next value).Sited Q

/-- A run of a machine that an account fits leaves one that another account fits; where the run
fails, it does so in the text that this account names. -/
def Traced (P : String → Span → Prop) (found : Account) (result : Outcome α × Machine) : Prop :=
  found.Fits P result.2 ∧ ∀ fault, result.1 = .failed fault → fault.Located (P found.current)

/-- The runs of tasks are traced. -/
def Traces (P : String → Span → Prop) (start : (task : Task) → Run task.Yield)
    (inside : Task → Machine → Account → Account) : Prop :=
  ∀ t m account, t.Everywhere (P account.current) → account.Fits P m →
    Traced P (inside t m account) (start t m)

/-- A plan is traced if the tasks that it starts are and its steps fail in the text that is being
run. -/
theorem Sited.traced (hstart : Traces P start inside) (h : plan.Sited (P account.current))
    (hfits : account.Fits P m) :
    Traced P (plan.account start inside m account) (plan.run start m) := by
  induction plan generalizing m account with
  | step run => exact ⟨hfits.noting (h m).2, (h m).1⟩
  | task t => exact hstart t m account h hfits
  | body id t => exact h.elim
  | andThen first next ihf ihn =>
    obtain ⟨hfound, hfault⟩ := ihf h.1 hfits
    rw [Plan.account, run, Run.andThen]
    generalize first.run start m = result at hfound hfault
    obtain ⟨outcome, mid⟩ := result
    cases outcome with
    | done value =>
      -- What comes next is again code of the text that was being run.
      exact ihn value (h.2 value) (hfound.of_closures_eq rfl)
    | failed fault =>
      refine ⟨hfound, ?_⟩
      rintro _ ⟨⟩
      exact hfault fault rfl
    | crashed | outOfFuel =>
      refine ⟨hfound, ?_⟩
      rintro _ ⟨⟩

end Plan

/-! ## Tasks and programs -/

section Plans

variable {Q : Span → Prop}

/-- The plan of an expression fails at one of its regions. -/
theorem Expr.sited_plan (scope : ScopeId) {e : Expr} (h : e.Everywhere Q) :
    (e.plan scope).Sited Q := by
  cases e with
  | number | text | bool | null => exact Run.sited_done _
  | name => exact Run.sited_ask h _
  | binary => exact ⟨h.1, fun _ => ⟨h.2.1, fun _ => Run.sited_ask h.2.2 _⟩⟩
  | logical op left right span =>
    refine ⟨h.1, fun value => ?_⟩
    dsimp only
    split
    · exact Run.sited_done _
    · exact h.2.1
  | unary => exact ⟨h.1, fun _ => Run.sited_ask h.2 _⟩
  | assign name value span =>
    exact ⟨h.1, fun found => ⟨Run.sited_assign scope name found, fun _ => Run.sited_done _⟩⟩
  | call => exact ⟨h.1, fun _ => ⟨h.2.1, fun _ => h.2.2⟩⟩
  | methodCall object method args span =>
    exact ⟨h.1, fun found => ⟨h.2.1, fun values =>
      Run.sited_within h.2.2 (.inl (Method.call_oblivious found method values))⟩⟩
  | member => exact ⟨h.1, fun _ => Run.sited_ask h.2 _⟩
  | array =>
    exact ⟨h.1, fun _ => ⟨Run.sited_make fun _ => rfl, fun _ => Run.sited_done _⟩⟩
  | index => exact ⟨h.1, fun _ => ⟨h.2.1, fun _ => Run.sited_ask h.2.2 _⟩⟩

/-- The plan of a statement fails at one of its regions. -/
theorem Stmt.sited_plan (scope : ScopeId) {s : Stmt} (h : s.Everywhere Q) :
    (s.plan scope).Sited Q := by
  cases s with
  | expr => exact ⟨h, fun _ => Run.sited_done _⟩
  | block => exact ⟨Run.sited_make fun _ => rfl, fun _ => h.1⟩
  | cond condition yes no span =>
    cases no with
    | none =>
      refine ⟨h.1, fun value => ?_⟩
      dsimp only
      split
      · exact h.2.1
      · exact Run.sited_done _
    | some no =>
      refine ⟨h.1, fun value => ?_⟩
      dsimp only
      split
      · exact h.2.1
      · exact h.2.2.1
  | whileLoop => exact ⟨h.1, h.2.1⟩
  | forLoop => exact ⟨h.1, fun _ => ⟨Run.sited_ask h.2.2 _, fun _ => h.2.1⟩⟩
  | function =>
    exact ⟨Run.sited_newClosure h.1, fun _ =>
      ⟨Run.sited_change fun _ => rfl, fun _ => Run.sited_done _⟩⟩
  | giveBack value span =>
    cases value with
    | none => exact Run.sited_done _
    | some e => exact ⟨h.1, fun _ => Run.sited_done _⟩
  | importing => exact Run.sited_done _

/-- What follows a statement fails where it does after a value. -/
theorem Flow.sited_plan {go : Value → Plan Flow} (h : ∀ value, (go value).Sited Q) (flow : Flow) :
    (flow.plan go).Sited Q := by
  cases flow with
  | normal value => exact h value
  | returned value => exact Run.sited_done _

/-- The plan of every task but a call of a function fails at one of its regions. -/
theorem Task.sited_plan (limit : Nat) {t : Task} (h : t.Everywhere Q) :
    (t.plan limit).Sited Q ∨ ∃ id args span, t = .call (.function id) args span := by
  cases t with
  | expr scope e => exact .inl (Expr.sited_plan scope h)
  | exprs scope es =>
    cases es with
    | nil => exact .inl (Run.sited_done _)
    | cons e es => exact .inl ⟨h.1, fun _ => ⟨h.2, fun _ => Run.sited_done _⟩⟩
  | call callee args span =>
    cases callee with
    | function id => exact .inr ⟨id, args, span, rfl⟩
    | native f => exact .inl (Run.sited_within h (f.call_modest args))
    | _ => exact .inl (Run.sited_ask h _)
  | stmt scope s => exact .inl (Stmt.sited_plan scope h)
  | stmts scope body last =>
    cases body with
    | nil => exact .inl (Run.sited_done _)
    | cons s body => exact .inl ⟨h.1, Flow.sited_plan fun _ => h.2⟩
  | loop scope condition body last =>
    refine .inl ⟨h.1, fun value => ?_⟩
    dsimp only
    split
    · exact ⟨h.2, Flow.sited_plan fun _ => h⟩
    · exact Run.sited_done _
  | rounds scope binder items body last =>
    cases items with
    | nil => exact .inl (Run.sited_done _)
    | cons item items =>
      exact .inl ⟨Run.sited_make fun _ => rfl, fun _ => ⟨Run.sited_change fun _ => rfl, fun _ =>
        ⟨h, Flow.sited_plan fun _ => h⟩⟩⟩

/-- The plan of a program fails at one of its regions. -/
theorem Program.sited_plan (last : Value) {program : Program} (h : EverywhereAmong Q program) :
    (program.plan last).Sited Q := by
  induction program generalizing last with
  | nil => exact Run.sited_done _
  | cons s rest ih =>
    refine ⟨h.1, fun flow => ?_⟩
    cases flow with
    | normal value => exact ih value h.2
    | returned value => exact Run.sited_failed _ h.1.span

end Plans

section Calls

variable {P : String → Span → Prop} {start : (task : Task) → Run task.Yield}
  {inside : Task → Machine → Account → Account} {account : Account} {m : Machine}

/-- The body of a function fails in the text of its closure, and what comes after it in the text
that was being run. -/
theorem Plan.traced_body (hstart : Traces P start inside) {β : Type} {id : ClosureId} {t : Task}
    {next : t.Yield → Plan β} (h : t.Everywhere (P (account.entering id).current))
    (hnext : ∀ value, (next value).Sited (P account.current)) (hfits : account.Fits P m) :
    Traced P ((andThen (body id t) next).account start inside m account)
      ((andThen (body id t) next).run start m) := by
  obtain ⟨hfound, hfault⟩ := hstart t { m with depth := m.depth + 1 } (account.entering id) h
    ⟨hfits.length_eq, hfits.bodies⟩
  have hbody : (body id t).run start m = Run.deeper (start t) m := rfl
  rw [Plan.account, hbody, run, Run.andThen, hbody, Plan.account]
  unfold Run.deeper
  generalize start t { m with depth := m.depth + 1 } = result at hfound hfault
  obtain ⟨outcome, mid⟩ := result
  cases outcome with
  | done value => exact (hnext value).traced hstart ⟨hfound.length_eq, hfound.bodies⟩
  | failed fault =>
    refine ⟨⟨hfound.length_eq, hfound.bodies⟩, ?_⟩
    rintro _ ⟨⟩
    exact hfault fault rfl
  | crashed | outOfFuel =>
    refine ⟨⟨hfound.length_eq, hfound.bodies⟩, ?_⟩
    rintro _ ⟨⟩

/-- In the body of a closure, something holds everywhere that depends on its text. -/
theorem Account.Fits.entering (hfits : account.Fits P m) {id : ClosureId} {f : Closure}
    (hf : m.store.closure? id = some f) :
    EverywhereAmong (P (account.entering id).current) f.body := by
  have hlt : id.index < account.closures.length := by
    rw [hfits.length_eq]
    exact (Array.getElem?_eq_some_iff.1 hf).1
  have htext := List.getElem?_eq_getElem hlt
  have hcurrent : (account.entering id).current = account.closures[id.index] := by
    rw [Account.entering, List.getD_eq_getElem?_getD, htext, Option.getD_some]
  rw [hcurrent]
  exact hfits.bodies hf htext

/-- A call of a function fails at its region, or inside the body in the text that the closure comes
from. -/
theorem Task.traced_call (hstart : Plan.Traces P start inside) (limit : Nat) (id : ClosureId)
    (args : List Value) {span : Span} (hs : P account.current span) (hfits : account.Fits P m) :
    let t := Task.call (.function id) args span
    Plan.Traced P ((t.plan limit).account start inside m account)
      ((t.plan limit).run start m) := by
  intro t
  have hplan : t.plan limit = .andThen (.step (enter limit id args span)) fun found =>
      .andThen (.body id (.stmts found.1 found.2 .null)) fun flow =>
        .step (.done (Flow.callResult flow)) := rfl
  have hfirst : (Plan.step (enter limit id args span)).run start m = enter limit id args span m :=
    rfl
  obtain ⟨hfault, hadds⟩ := Run.sited_enter limit id args hs m
  have hnoted := hfits.noting hadds
  rw [hplan, Plan.account, hfirst, Plan.run, Run.andThen, hfirst, Plan.account]
  rcases enter_eq limit id args span m with ⟨fault, henter⟩ | ⟨f, hf, -, henter⟩
  · rw [henter] at hfault hnoted ⊢
    refine ⟨hnoted, ?_⟩
    rintro _ ⟨⟩
    exact hfault fault rfl
  · rw [henter] at hnoted ⊢
    have hkept : (m.opened f.scope f.params args).store.closure? id = some f := by
      have hclosures : (m.opened f.scope f.params args).store.closures = m.store.closures :=
        Machine.Tame.closures_bindAll _ _ _ _
      rw [Store.closure?, hclosures]
      exact hf
    have hback : ((account.noting (m.opened f.scope f.params args)).returning account).Fits P
        (m.opened f.scope f.params args) := hnoted.of_closures_eq rfl
    exact Plan.traced_body hstart (hback.entering hkept) (fun _ => Run.sited_done _) hback

end Calls

/-- Where the run of a task fails, it does so in the text that the account names. -/
theorem Task.traced (P : String → Span → Prop) (limit fuel : Nat) :
    Plan.Traces P (run limit fuel) (account limit fuel) := by
  -- The tasks that a task starts have one unit of fuel less.
  induction fuel with
  | zero =>
    intro t m known _ hfits
    rw [run_zero]
    exact ⟨hfits, nofun⟩
  | succ fuel ih =>
    intro t m known h hfits
    rw [run_succ]
    rcases sited_plan limit h with hsited | ⟨id, args, span, rfl⟩
    · exact hsited.traced ih hfits
    · exact traced_call ih limit id args h hfits

/-- The account after the run of a program that was read from a text. -/
def Program.account (limit fuel : Nat) (program : Program) (m : Machine) (known : Account) :
    Account :=
  (program.plan .null).account (Task.run limit fuel) (Task.account limit fuel) m known

/-- Where the run of a program fails, it does so in the text that the account names. -/
theorem Eval.traced_program {P : String → Span → Prop} (limit fuel : Nat) {program : Program}
    {m : Machine} {known : Account} (h : EverywhereAmong (P known.current) program)
    (hfits : known.Fits P m) :
    Plan.Traced P (program.account limit fuel m known) (runProgram limit fuel .null program m) := by
  rw [runProgram_eq_plan]
  exact (Program.sited_plan .null h).traced (Task.traced P limit fuel) hfits

end QuantumScript
