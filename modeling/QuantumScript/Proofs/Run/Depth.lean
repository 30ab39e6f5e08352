import QuantumScript.Proofs.Program.Bare
import QuantumScript.Proofs.Run.Effects
import QuantumScript.Proofs.Run.Plan
import QuantumScript.Session

/-!
# The count of function bodies

A machine counts the function bodies being run. `Reached` says which tasks a run of a program gets
to, on which machines and inside which function bodies, and `Moment` says which machines there are
on the way: before and after every step, every task and every body. At each moment the count is the
number of the bodies being run and not above the limit, and every task leaves the count as it found
it, however it ends. A call enters its function exactly when fewer bodies than the limit are being
run (`Session.depth_counts_bodies`).
-/

namespace QuantumScript

open Eval

/-! ## The steps of a plan -/

namespace Run

/-- A property that the runs have which the steps of a plan can be, calls of library functions and
of functions apart. -/
structure Common (P : {α : Type} → Run α → Prop) : Prop where
  /-- To yield a value at once has the property. -/
  done {α : Type} (value : α) : P (Run.done value)
  /-- To fail at once has it. -/
  failed (cause : Cause) (span : Span) : P (Run.failed cause span : Run Value)
  /-- To ask the store has it. -/
  ask {α : Type} (span : Span) (question : Store → Except Cause α) : P (Run.ask span question)
  /-- To call a method has it. -/
  method (span : Span) (object : Value) (name : String) (args : List Value) :
    P (Run.within span fun m => Method.call object name args m)
  /-- To change the store has it. -/
  change (f : Store → Store) : P (Run.change f)
  /-- To add something to the store has it. -/
  make {α : Type} (f : Store → α × Store) : P (Run.make f)

/-- A run that leaves the count of function bodies. -/
def Quiet {α : Type} (run : Run α) : Prop :=
  ∀ m, (run m).2.depth = m.depth

/-- A call of the library leaves the count. -/
theorem quiet_within (span : Span) {call : Machine → Native.Result} (h : Native.Modest call) :
    (Run.within span call).Quiet :=
  fun m => (Run.effected_within span h : (Run.within span call).Effected none) m |>.depth_eq

/-- The steps of a plan leave the count. -/
theorem common_quiet : Common Quiet where
  done _ _ := rfl
  failed _ _ _ := rfl
  ask span question m :=
    (Run.effected_ask span question : (Run.ask span question).Effected none) m |>.depth_eq
  method span object name args := quiet_within span (.inl (Method.call_oblivious object name args))
  change _ _ := rfl
  make _ _ := rfl

end Run

namespace Plan

variable {start : (task : Task) → Run task.Yield} {α : Type} {plan : Plan α}
  {entered : Option ClosureId} {t : Task} {m after : Machine}

/-- A plan that is followed from a machine starts a task on a machine: as it is, or as the body of a
function with one more body counted. The second of two plans is followed from the machine that the
first leaves with a value. -/
def Starts (start : (task : Task) → Run task.Yield) {α : Type} :
    Plan α → Machine → Option ClosureId → Task → Machine → Prop
  | step _, _, _, _, _ => False
  | task t, m, entered, u, after => entered = none ∧ u = t ∧ after = m
  | body id t, m, entered, u, after =>
    entered = some id ∧ u = t ∧ after = { m with depth := m.depth + 1 }
  | andThen first next, m, entered, u, after =>
    first.Starts start m entered u after ∨
      ∃ value mid, first.run start m = (.done value, mid) ∧
        (next value).Starts start mid entered u after

/-- A plan that is followed from a machine passes another: before or after a step, a task or the
body of a function, or inside that body, at its start or its end. -/
def Passes (start : (task : Task) → Run task.Yield) {α : Type} :
    Plan α → Machine → Option ClosureId → Machine → Prop
  | step run, m, entered, after => entered = none ∧ (after = m ∨ after = (run m).2)
  | task t, m, entered, after => entered = none ∧ (after = m ∨ after = (start t m).2)
  | body id t, m, entered, after =>
    (entered = none ∧ (after = m ∨ after = (Run.deeper (start t) m).2)) ∨
      (entered = some id ∧ (after = { m with depth := m.depth + 1 } ∨
        after = (start t { m with depth := m.depth + 1 }).2))
  | andThen first next, m, entered, after =>
    first.Passes start m entered after ∨
      ∃ value mid, first.run start m = (.done value, mid) ∧
        (next value).Passes start mid entered after

/-- A task starts on a machine that is passed. -/
theorem Starts.passes (h : plan.Starts start m entered t after) :
    plan.Passes start m entered after := by
  induction plan generalizing m with
  | step run => exact h.elim
  | task u =>
    obtain ⟨hentered, -, rfl⟩ := h
    exact ⟨hentered, .inl rfl⟩
  | body id u =>
    obtain ⟨hentered, -, rfl⟩ := h
    exact .inr ⟨hentered, .inl rfl⟩
  | andThen first next ihf ihn =>
    rcases h with h | ⟨value, mid, hdone, h⟩
    · exact .inl (ihf h)
    · exact .inr ⟨value, mid, hdone, ihn value h⟩

/-- A plan that starts no function body, with steps that all have a property. -/
def Steps (P : {α : Type} → Run α → Prop) {α : Type} : Plan α → Prop
  | step run => P run
  | task _ => True
  | body _ _ => False
  | andThen first next => first.Steps P ∧ ∀ value, (next value).Steps P

/-- A plan with quiet steps leaves the count of bodies, if the tasks in it do. -/
theorem Steps.depth_eq (hstart : ∀ t m, (start t m).2.depth = m.depth) (h : plan.Steps Run.Quiet)
    (m : Machine) : (plan.run start m).2.depth = m.depth := by
  induction plan generalizing m with
  | step run => exact h m
  | task t => exact hstart t m
  | body id t => exact h.elim
  | andThen first next ihf ihn =>
    have hfirst := ihf h.1 m
    unfold Plan.run Run.andThen
    generalize first.run start m = found at hfirst
    obtain ⟨outcome, mid⟩ := found
    cases outcome with
    | done value => exact (ihn value (h.2 value) mid).trans hfirst
    | failed fault => exact hfirst
    | crashed => exact hfirst
    | outOfFuel => exact hfirst

/-- A plan with quiet steps passes machines with the count it is followed from, inside no new
body. -/
theorem Steps.passes (hstart : ∀ t m, (start t m).2.depth = m.depth) (h : plan.Steps Run.Quiet)
    (hp : plan.Passes start m entered after) : entered = none ∧ after.depth = m.depth := by
  induction plan generalizing m with
  | step run =>
    obtain ⟨hentered, rfl | rfl⟩ := hp
    · exact ⟨hentered, rfl⟩
    · exact ⟨hentered, h m⟩
  | task t =>
    obtain ⟨hentered, rfl | rfl⟩ := hp
    · exact ⟨hentered, rfl⟩
    · exact ⟨hentered, hstart t m⟩
  | body id t => exact h.elim
  | andThen first next ihf ihn =>
    rcases hp with hp | ⟨value, mid, hdone, hp⟩
    · exact ihf h.1 hp
    · obtain ⟨hentered, hdepth⟩ := ihn value (h.2 value) hp
      have hfirst := h.1.depth_eq hstart m
      rw [hdone] at hfirst
      exact ⟨hentered, hdepth.trans hfirst⟩

end Plan

section Common

variable {P : {α : Type} → Run α → Prop}

/-- The steps of an expression have what the steps of plans have in common. -/
theorem Expr.steps_plan (hP : Run.Common P) (scope : ScopeId) (e : Expr) :
    (e.plan scope).Steps P := by
  cases e with
  | number | text | bool | null => exact hP.done _
  | name => exact hP.ask _ _
  | binary => exact ⟨trivial, fun _ => ⟨trivial, fun _ => hP.ask _ _⟩⟩
  | logical op left right span =>
    refine ⟨trivial, fun value => ?_⟩
    dsimp only
    split
    · exact hP.done _
    · trivial
  | unary => exact ⟨trivial, fun _ => hP.ask _ _⟩
  | assign name value span =>
    refine ⟨trivial, fun found => ⟨?_, fun _ => hP.done _⟩⟩
    rw [Run.attempt_assign]
    exact hP.change _
  | call => exact ⟨trivial, fun _ => ⟨trivial, fun _ => trivial⟩⟩
  | methodCall => exact ⟨trivial, fun _ => ⟨trivial, fun _ => hP.method _ _ _ _⟩⟩
  | member => exact ⟨trivial, fun _ => hP.ask _ _⟩
  | array => exact ⟨trivial, fun _ => ⟨hP.make _, fun _ => hP.done _⟩⟩
  | index => exact ⟨trivial, fun _ => ⟨trivial, fun _ => hP.ask _ _⟩⟩

/-- The steps of a statement have what the steps of plans have in common. -/
theorem Stmt.steps_plan (hP : Run.Common P) (scope : ScopeId) (s : Stmt) :
    (s.plan scope).Steps P := by
  cases s with
  | expr => exact ⟨trivial, fun _ => hP.done _⟩
  | block => exact ⟨hP.make _, fun _ => trivial⟩
  | cond condition yes no span =>
    refine ⟨trivial, fun value => ?_⟩
    dsimp only
    split
    · trivial
    · cases no with
      | none => exact hP.done _
      | some no => trivial
  | whileLoop => trivial
  | forLoop => exact ⟨trivial, fun _ => ⟨hP.ask _ _, fun _ => trivial⟩⟩
  | function => exact ⟨hP.make _, fun _ => ⟨hP.change _, fun _ => hP.done _⟩⟩
  | giveBack value span =>
    cases value with
    | none => exact hP.done _
    | some value => exact ⟨trivial, fun _ => hP.done _⟩
  | importing => exact hP.done _

/-- What follows a statement has such steps, if it has them after a value. -/
theorem Flow.steps_plan (hP : Run.Common P) {go : Value → Plan Flow}
    (h : ∀ value, (go value).Steps P) (flow : Flow) : (flow.plan go).Steps P := by
  cases flow with
  | normal value => exact h value
  | returned value => exact hP.done _

/-- The steps of every task have what the steps of plans have in common, unless it is the call of a
library function or of a function. -/
theorem Task.steps_plan (hP : Run.Common P) (limit : Nat) (t : Task) :
    (t.plan limit).Steps P ∨ (∃ f args span, t = .call (.native f) args span) ∨
      ∃ id args span, t = .call (.function id) args span := by
  cases t with
  | expr scope e => exact .inl (Expr.steps_plan hP scope e)
  | exprs scope es =>
    cases es with
    | nil => exact .inl (hP.done _)
    | cons e es => exact .inl ⟨trivial, fun _ => ⟨trivial, fun _ => hP.done _⟩⟩
  | call callee args span =>
    cases callee with
    | function id => exact .inr (.inr ⟨id, args, span, rfl⟩)
    | native f => exact .inr (.inl ⟨f, args, span, rfl⟩)
    | _ => exact .inl (hP.ask _ _)
  | stmt scope s => exact .inl (Stmt.steps_plan hP scope s)
  | stmts scope body last =>
    cases body with
    | nil => exact .inl (hP.done _)
    | cons s body => exact .inl ⟨trivial, Flow.steps_plan hP fun _ => trivial⟩
  | loop scope condition body last =>
    refine .inl ⟨trivial, fun value => ?_⟩
    dsimp only
    split
    · exact ⟨trivial, Flow.steps_plan hP fun _ => trivial⟩
    · exact hP.done _
  | rounds scope binder items body last =>
    cases items with
    | nil => exact .inl (hP.done _)
    | cons item items =>
      exact .inl ⟨hP.make _, fun _ => ⟨hP.change _, fun _ =>
        ⟨trivial, Flow.steps_plan hP fun _ => trivial⟩⟩⟩

/-- The steps of a program have what the steps of plans have in common. -/
theorem Program.steps_plan (hP : Run.Common P) (last : Value) (program : Program) :
    (program.plan last).Steps P := by
  induction program generalizing last with
  | nil => exact hP.done _
  | cons s rest ih =>
    refine ⟨trivial, fun flow => ?_⟩
    cases flow with
    | normal value => exact ih value
    | returned value => exact hP.failed _ _

end Common

/-! ## The count -/

namespace Eval

variable {limit fuel left : Nat} {id : ClosureId} {args : List Value} {span : Span} {f : Closure}
  {m after begins : Machine} {t u : Task} {entered : Option ClosureId} {active : List ClosureId}
  {program : Program}

/-- Every task leaves the count of function bodies as it found it, however it ends. -/
theorem run_depth (limit fuel : Nat) (t : Task) (m : Machine) :
    (t.run limit fuel m).2.depth = m.depth := by
  have h := effected limit fuel
  cases t with
  | expr scope e => exact (h.evaluate scope e m).depth_eq
  | exprs scope es => exact (h.evaluateAll scope es m).depth_eq
  | call callee args span => exact (h.callValue callee args span m).depth_eq
  | stmt scope s => exact (h.execute scope s m).depth_eq
  | stmts scope body last => exact (h.executeAll scope body last m).depth_eq
  | loop scope condition body last => exact (h.executeWhile scope condition body last m).depth_eq
  | rounds scope binder items body last =>
    exact (h.executeFor scope binder items body last m).depth_eq

/-- A call of a function starts nothing but its body, and that exactly when the function is there,
the arguments fit and fewer function bodies than the limit are being run. -/
theorem starts_call :
    ((Task.call (.function id) args span).plan limit).Starts (Task.run limit fuel) m entered t
        after ↔
      ∃ f, m.store.closure? id = some f ∧ args.length = f.params.length ∧ m.depth < limit ∧
        entered = some id ∧ t = .stmts m.store.nextScope f.body .null ∧
        after = { m.opened f.scope f.params args with depth := m.depth + 1 } := by
  constructor
  · rintro (h | ⟨found, mid, hdone, h⟩)
    · exact h.elim
    · obtain ⟨f, hf, hargs, hdepth, rfl, rfl⟩ := enter_eq_done.1 hdone
      rcases h with ⟨hentered, ht, hafter⟩ | ⟨_, _, _, h⟩
      · exact ⟨f, hf, hargs, hdepth, hentered, ht, hafter⟩
      · exact h.elim
  · rintro ⟨f, hf, hargs, hdepth, rfl, rfl, rfl⟩
    exact .inr ⟨_, _, enter_eq_done.2 ⟨f, hf, hargs, hdepth, rfl, rfl⟩, .inl ⟨rfl, rfl, rfl⟩⟩

/-- A call of a function passes machines with the count it is followed from and, below the limit,
one more inside the body. -/
theorem passes_call
    (h : ((Task.call (.function id) args span).plan limit).Passes (Task.run limit fuel) m entered
      after) :
    after.depth = m.depth + entered.toList.length ∧ (m.depth ≤ limit → after.depth ≤ limit) := by
  have hsame {k : Machine} (hk : k.depth = m.depth) : k.depth = m.depth + 0 ∧
      (m.depth ≤ limit → k.depth ≤ limit) := ⟨hk, fun hle => hk ▸ hle⟩
  rcases h with ⟨rfl, rfl | rfl⟩ | ⟨found, mid, hdone, h⟩
  · exact hsame rfl
  · refine hsame ?_
    rcases enter_eq limit id args span m with ⟨fault, henter⟩ | ⟨f, -, -, henter⟩ <;> rw [henter]
    rfl
  · obtain ⟨f, -, -, hlt, rfl, rfl⟩ := enter_eq_done.1 hdone
    have hbody := run_depth limit fuel (.stmts m.store.nextScope f.body .null)
      { m.opened f.scope f.params args with depth := m.depth + 1 }
    have hdeeper : (Run.deeper (Task.run limit fuel (.stmts m.store.nextScope f.body .null))
        (m.opened f.scope f.params args)).2.depth = m.depth := congrArg (· - 1) hbody
    rcases h with (⟨rfl, rfl | rfl⟩ | ⟨rfl, rfl | rfl⟩) | ⟨flow, last, hflow, ⟨rfl, h⟩⟩
    · exact hsame rfl
    · exact hsame hdeeper
    · exact ⟨rfl, fun _ => hlt⟩
    · exact ⟨hbody, fun _ => hbody ▸ hlt⟩
    · have hlast : last.depth = m.depth := by
        rw [← hdeeper]
        exact congrArg (·.2.depth) hflow.symm
      rcases h with rfl | rfl
      · exact hsame hlast
      · exact hsame hlast

/-- What is passed while a task is run has the count that the task was started with, and one more
inside the body of a function; then it is not above the limit either. -/
theorem depth_of_passes (h : (t.plan limit).Passes (Task.run limit fuel) m entered after) :
    after.depth = m.depth + entered.toList.length ∧ (m.depth ≤ limit → after.depth ≤ limit) := by
  have hsame {entered : Option ClosureId} (h : entered = none ∧ after.depth = m.depth) :
      after.depth = m.depth + entered.toList.length ∧ (m.depth ≤ limit → after.depth ≤ limit) := by
    obtain ⟨rfl, hdepth⟩ := h
    exact ⟨hdepth, fun hle => hdepth ▸ hle⟩
  rcases Task.steps_plan Run.common_quiet limit t with hsteps | ⟨f, args, span, rfl⟩ |
    ⟨id, args, span, rfl⟩
  · exact hsame (hsteps.passes (run_depth limit fuel) h)
  · have hsteps : ((Task.call (.native f) args span).plan limit).Steps Run.Quiet :=
      Run.quiet_within span (f.call_modest args)
    exact hsame (hsteps.passes (run_depth limit fuel) h)
  · exact passes_call h

/-- While a program is run from a machine with some fuel, a task is started on a machine, with the
fuel that is left and inside the bodies of some functions, the innermost first. -/
inductive Reached (limit fuel : Nat) (program : Program) (begins : Machine) :
    Nat → List ClosureId → Task → Machine → Prop
  /-- The program starts the task. -/
  | program {entered : Option ClosureId} {t : Task} {m : Machine}
    (h : (program.plan .null).Starts (Task.run limit fuel) begins entered t m) :
    Reached limit fuel program begins fuel entered.toList t m
  /-- A task that is being run starts it. -/
  | task {left : Nat} {active : List ClosureId} {entered : Option ClosureId} {t u : Task}
    {m after : Machine} (outer : Reached limit fuel program begins (left + 1) active t m)
    (h : (t.plan limit).Starts (Task.run limit left) m entered u after) :
    Reached limit fuel program begins left (entered.toList ++ active) u after

/-- While a program is run from a machine with some fuel, a machine is passed inside the bodies of
some functions, the innermost first. -/
inductive Moment (limit fuel : Nat) (program : Program) (begins : Machine) :
    List ClosureId → Machine → Prop
  /-- The program passes it. -/
  | program {entered : Option ClosureId} {m : Machine}
    (h : (program.plan .null).Passes (Task.run limit fuel) begins entered m) :
    Moment limit fuel program begins entered.toList m
  /-- A task that is being run passes it. -/
  | task {left : Nat} {active : List ClosureId} {entered : Option ClosureId} {t : Task}
    {m after : Machine} (outer : Reached limit fuel program begins (left + 1) active t m)
    (h : (t.plan limit).Passes (Task.run limit left) m entered after) :
    Moment limit fuel program begins (entered.toList ++ active) after

/-- What a program passes has the count it began with. -/
theorem depth_of_program
    (h : (program.plan .null).Passes (Task.run limit fuel) begins entered m) :
    m.depth = begins.depth + entered.toList.length ∧ (begins.depth ≤ limit → m.depth ≤ limit) := by
  obtain ⟨rfl, hdepth⟩ := (Program.steps_plan Run.common_quiet _ _).passes (run_depth limit fuel) h
  exact ⟨hdepth, fun hle => hdepth ▸ hle⟩

/-- A task that is reached starts with a count that has grown by the number of function bodies being
run, and not above the limit if it was not so at first. -/
theorem Reached.depth_eq (h : Reached limit fuel program begins left active t m) :
    m.depth = begins.depth + active.length ∧ (begins.depth ≤ limit → m.depth ≤ limit) := by
  induction h with
  | program h => exact depth_of_program h.passes
  | task _ h ih =>
    obtain ⟨hgrown, hlimit⟩ := depth_of_passes h.passes
    refine ⟨?_, fun hle => hlimit (ih.2 hle)⟩
    rw [hgrown, ih.1, List.length_append]
    omega

/-- At every moment the count has grown by the number of function bodies being run, and it is not
above the limit if it was not so at first. -/
theorem Moment.depth_eq (h : Moment limit fuel program begins active m) :
    m.depth = begins.depth + active.length ∧ (begins.depth ≤ limit → m.depth ≤ limit) := by
  cases h with
  | program h => exact depth_of_program h
  | task outer h =>
    obtain ⟨hcount, hle⟩ := outer.depth_eq
    obtain ⟨hgrown, hlimit⟩ := depth_of_passes h
    refine ⟨?_, fun hbegins => hlimit (hle hbegins)⟩
    rw [hgrown, hcount, List.length_append]
    omega

/-- Where fewer function bodies than the limit are being run, a call with fitting arguments runs the
body as one more. -/
theorem callValue_of_depth_lt (hf : m.store.closure? id = some f)
    (hargs : args.length = f.params.length) (hdepth : m.depth < limit) :
    callValue limit (fuel + 1) (.function id) args span m =
      (Run.deeper (executeAll limit fuel m.store.nextScope f.body .null) >>= fun flow =>
        Run.done flow.callResult) (m.opened f.scope f.params args) :=
  Run.bind_of_done (enter_eq_done.2 ⟨f, hf, hargs, hdepth, rfl, rfl⟩)

/-- Where as many function bodies as the limit are being run, a call with fitting arguments
fails. -/
theorem callValue_of_limit_le (hf : m.store.closure? id = some f)
    (hargs : args.length = f.params.length) (hdepth : limit ≤ m.depth) :
    callValue limit (fuel + 1) (.function id) args span m =
      (.failed ⟨.callDepthExceeded limit, some span⟩, m) := by
  refine Run.bind_of_failed ?_
  unfold enter
  rw [hf]
  dsimp only
  rw [if_neg (fun hne => hne hargs), if_pos hdepth]

end Eval

/-- Every task leaves the count of function bodies as it found it. At every moment of the run of a
program the count is the number of function bodies being run, which is at most the limit. A call
with fitting arguments that is reached starts the body of its function exactly if fewer bodies than
the limit are being run, and fails otherwise. -/
theorem Session.depth_counts_bodies (session : Session) (fuel : Nat) :
    (∀ t m, (Task.run session.limit fuel t m).2.depth = m.depth) ∧
    (∀ program active m,
      Moment session.limit fuel program { session.machine with depth := 0 } active m →
      m.depth = active.length ∧ active.length ≤ session.limit) ∧
    ∀ program left active m id args span f,
      Reached session.limit fuel program { session.machine with depth := 0 } (left + 1) active
        (.call (.function id) args span) m →
      m.store.closure? id = some f → args.length = f.params.length →
      (((Task.call (.function id) args span).plan session.limit).Starts
          (Task.run session.limit left) m (some id) (.stmts m.store.nextScope f.body .null)
          { m.opened f.scope f.params args with depth := active.length + 1 } ↔
        active.length < session.limit) ∧
      (active.length < session.limit →
        callValue session.limit (left + 1) (.function id) args span m =
          (Run.deeper (executeAll session.limit left m.store.nextScope f.body .null) >>=
            fun flow => Run.done flow.callResult) (m.opened f.scope f.params args)) ∧
      (session.limit ≤ active.length →
        callValue session.limit (left + 1) (.function id) args span m =
          (.failed ⟨.callDepthExceeded session.limit, some span⟩, m)) := by
  refine ⟨run_depth session.limit fuel, fun program active m h => ?_, ?_⟩
  · obtain ⟨hcount, hlimit⟩ := h.depth_eq
    have hdepth : m.depth = active.length := by simpa using hcount
    exact ⟨hdepth, hdepth ▸ hlimit (Nat.zero_le _)⟩
  · intro program left active m id args span f h hf hargs
    have hdepth : m.depth = active.length := by simpa using h.depth_eq.1
    rw [← hdepth]
    refine ⟨⟨fun hs => ?_, fun hlt => starts_call.2 ⟨f, hf, hargs, hlt, rfl, rfl, rfl⟩⟩,
      callValue_of_depth_lt hf hargs, callValue_of_limit_le hf hargs⟩
    obtain ⟨_, -, -, hlt, -⟩ := starts_call.1 hs
    exact hlt

/-- A session whose outermost scope binds a function with an empty body, where one function body may
be run at a time. -/
def Session.withFunction : Session :=
  { machine :=
      { store :=
          { Store.initial with
            scopes := #[⟨none, [("f", .function ⟨0⟩)]⟩]
            closures := #[⟨"f", [], [], Store.globalScope⟩] }
        console := ⟨#[], []⟩
        dice := .zeros
        depth := 0 }
    limit := 1
    fuel := 4 }

/-- The program that calls that function. -/
def Session.callingProgram : Program :=
  [.expr (.call (.name "f" .anywhere) [] .anywhere)]

/-- The call of the function is reached while no function body is being run, and enters it. -/
theorem Session.depth_counts_bodies_call :
    Reached 1 4 callingProgram withFunction.machine 2 [] (.call (.function ⟨0⟩) [] .anywhere)
        withFunction.machine ∧
      ((Task.call (.function ⟨0⟩) [] .anywhere).plan 1).Starts (Task.run 1 1) withFunction.machine
        (some ⟨0⟩) (.stmts ⟨1⟩ [] .null)
        { withFunction.machine.opened Store.globalScope [] [] with depth := 1 } := by
  have hstmt : Reached 1 4 callingProgram withFunction.machine 4 []
      (.stmt Store.globalScope (.expr (.call (.name "f" .anywhere) [] .anywhere)))
      withFunction.machine := by
    refine .program (?_ : Plan.Starts _ _ _ none _ _)
    exact .inl ⟨rfl, rfl, rfl⟩
  have hexpr : Reached 1 4 callingProgram withFunction.machine 3 []
      (.expr Store.globalScope (.call (.name "f" .anywhere) [] .anywhere))
      withFunction.machine := by
    refine .task hstmt (?_ : Plan.Starts _ _ _ none _ _)
    exact .inl ⟨rfl, rfl, rfl⟩
  have hcall : Reached 1 4 callingProgram withFunction.machine 2 []
      (.call (.function ⟨0⟩) [] .anywhere) withFunction.machine := by
    have hfound : withFunction.machine.store.get Store.globalScope "f" = .ok (.function ⟨0⟩) := by
      rw [Store.get, Store.get?, Store.lookup?]
      rfl
    have hcallee : Task.run 1 2 (.expr Store.globalScope (.name "f" .anywhere))
        withFunction.machine = (.done (.function ⟨0⟩), withFunction.machine) := by
      show Run.ask .anywhere (fun store => store.get Store.globalScope "f") withFunction.machine = _
      rw [Run.ask, hfound]
    refine .task hexpr (?_ : Plan.Starts _ _ _ none _ _)
    exact .inr ⟨_, _, hcallee, Or.inr ⟨[], _, rfl, rfl, rfl, rfl⟩⟩
  obtain ⟨-, -, hcalls⟩ := depth_counts_bodies withFunction 4
  obtain ⟨hstarts, -⟩ := hcalls callingProgram 1 [] _ ⟨0⟩ [] .anywhere _ hcall rfl rfl
  exact ⟨hcall, hstarts.2 (by decide)⟩

end QuantumScript
