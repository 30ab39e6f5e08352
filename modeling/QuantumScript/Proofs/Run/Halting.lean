import QuantumScript.Proofs.Run.Crash

/-!
# Programs without `while` come to an end

Without `while`, a program can go on for long only by calls and by loops through arrays. A loop goes
through the items that the array had when it began, and calls nest no deeper than the limit. So
every run of such a program ends (`Eval.runProgram_halts`), with a value or a fault, unless a
library function crashes that asks for too much room (`Session.whileFree_terminates`).

The argument is by the number of calls that may still be nested, and for one such number by the
syntax. Bodies of closures are run from the store, so all closures of the store must be free of
`while` too, which every run preserves: that is part of `Machine.Tame`, the invariant.
-/

namespace QuantumScript

mutual

/-- Whether a statement has no `while` in it, bodies of functions included. -/
def Stmt.whileFree : Stmt → Bool
  | .expr _ | .giveBack _ _ | .importing _ _ _ => true
  | .whileLoop _ _ _ => false
  | .block body _ | .function _ _ body _ => Program.whileFree body
  | .cond _ yes none _ => yes.whileFree
  | .cond _ yes (some no) _ => yes.whileFree && no.whileFree
  | .forLoop _ _ body _ => body.whileFree

/-- Whether a program has no `while` in it. -/
def Program.whileFree : Program → Bool
  | [] => true
  | s :: ss => s.whileFree && Program.whileFree ss

end

/-- A machine runs so many function bodies, and no closure of it has `while` in its body. -/
structure Machine.Tame (depth : Nat) (m : Machine) : Prop where
  /-- So many function bodies are being run. -/
  depth_eq : m.depth = depth
  /-- The closures are free of `while`. -/
  whileFree : ∀ f ∈ m.store.closures, Program.whileFree f.body

namespace Machine.Tame

variable {depth : Nat} {m after : Machine}

/-- Only closures and the depth matter. -/
theorem congr (h : m.Tame depth) (hd : after.depth = m.depth)
    (hc : after.store.closures = m.store.closures) : after.Tame depth :=
  ⟨hd.trans h.depth_eq, by rw [hc]; exact h.whileFree⟩

/-- A new closure without `while` may be added. -/
theorem newClosure (h : m.Tame depth) {f : Closure} (hf : Program.whileFree f.body) :
    (m.mapStore fun store => (store.newClosure f).2).Tame depth := by
  refine ⟨h.depth_eq, fun g hg => ?_⟩
  rcases Array.mem_push.1 hg with hmem | rfl
  · exact h.whileFree g hmem
  · exact hf

/-- A call of the library keeps the closures and the depth. -/
theorem library (h : m.Tame depth) {call : Machine → Native.Result}
    (hc : Native.Modest call) : (call m).2.Tame depth := by
  obtain ⟨-, hclosures, hdepth, -⟩ := hc.leaves m
  exact h.congr hdepth hclosures

/-- Binding parameters keeps the closures. -/
theorem closures_bindAll (id : ScopeId) (params : List String) (args : List Value)
    (store : Store) : (Eval.bindAll id params args store).closures = store.closures := by
  unfold Eval.bindAll
  induction params.zip args generalizing store with
  | nil => rfl
  | cons pair pairs ih => exact ih _

/-- Opening a scope keeps the closures and the depth. -/
theorem opened (h : m.Tame depth) (parent : ScopeId) (params : List String) (args : List Value) :
    (m.opened parent params args).Tame depth :=
  h.congr rfl (closures_bindAll _ params args _)

end Machine.Tame

/-! ## Halting -/

namespace Run

variable {α β : Type} {depth : Nat} {m : Machine}

/-- With enough fuel, a run from a machine ends, always the same way, and leaves a tame machine. -/
def HaltsAt (depth : Nat) (run : Nat → Run α) (m : Machine) : Prop :=
  ∃ enough outcome after, (∀ fuel ≥ enough, run fuel m = (outcome, after)) ∧
    outcome ≠ .outOfFuel ∧ after.Tame depth

/-- A run halts from every tame machine. -/
def Halts (depth : Nat) (run : Nat → Run α) : Prop :=
  ∀ m, m.Tame depth → HaltsAt depth run m

/-- A run that needs no fuel halts. -/
theorem haltsAt_const {run : Run α} (hne : (run m).1 ≠ .outOfFuel)
    (ht : (run m).2.Tame depth) : HaltsAt depth (fun _ => run) m :=
  ⟨0, (run m).1, (run m).2, fun _ _ => rfl, hne, ht⟩

/-- A run that yields a value at once halts. -/
theorem halts_done (value : α) : Halts depth fun _ => Run.done value :=
  fun _ ht => haltsAt_const nofun ht

/-- A question halts. -/
theorem halts_ask (span : Span) (question : Store → Except Cause α) :
    Halts depth fun _ => Run.ask span question := by
  intro m ht
  cases hq : question m.store with
  | ok value => exact ⟨0, .done value, m, fun _ _ => by simp only [ask, hq], by simp, ht⟩
  | error cause =>
    exact ⟨0, .failed ⟨cause, some span⟩, m, fun _ _ => by simp only [ask, hq], by simp, ht⟩

/-- A call of the library halts. -/
theorem halts_within (span : Span) {call : Machine → Native.Result}
    (h : Native.Modest call) : Halts depth fun _ => Run.within span call := by
  intro m ht
  have hcall := ht.library h
  cases hc : call m with
  | mk answer after =>
    rw [hc] at hcall
    cases answer with
    | ok value => exact ⟨0, .done value, after, fun _ _ => by simp only [within, hc], nofun, hcall⟩
    | error cause =>
      exact ⟨0, .failed ⟨cause, some span⟩, after, fun _ _ => by simp only [within, hc], nofun,
        hcall⟩
    | crash => exact ⟨0, .crashed, after, fun _ _ => by simp only [within, hc], nofun, hcall⟩

/-- A change of the store that keeps the closures halts. -/
theorem halts_change {f : Store → Store} (hf : ∀ store, (f store).closures = store.closures) :
    Halts depth fun _ => Run.change f :=
  fun m ht => haltsAt_const nofun (ht.congr rfl (hf m.store))

/-- A step that takes one unit of fuel halts if what it goes on with does. -/
theorem HaltsAt.succ {run next : Nat → Run α} {start : Machine}
    (hs : ∀ fuel, run (fuel + 1) m = next fuel start) (h : HaltsAt depth next start) :
    HaltsAt depth run m := by
  obtain ⟨enough, outcome, after, heq, hne, ht⟩ := h
  refine ⟨enough + 1, outcome, after, fun fuel hfuel => ?_, hne, ht⟩
  obtain ⟨fuel, rfl⟩ : ∃ less, fuel = less + 1 := ⟨fuel - 1, by omega⟩
  rw [hs, heq fuel (by omega)]

/-- A run halts if it does with one unit of fuel more. -/
theorem Halts.succ {run : Nat → Run α} (h : Halts depth fun fuel => run (fuel + 1)) :
    Halts depth run :=
  fun m ht => HaltsAt.succ (fun _ => rfl) (h m ht)

/-- Two runs one after the other halt if both do. -/
theorem HaltsAt.bind {first : Nat → Run α} {next : α → Nat → Run β}
    (hf : HaltsAt depth first m) (hn : ∀ value, Halts depth (next value)) :
    HaltsAt depth (fun fuel => first fuel >>= fun value => next value fuel) m := by
  obtain ⟨enough, outcome, mid, heq, hne, ht⟩ := hf
  cases outcome with
  | done value =>
    -- Both need fuel of their own; the larger amount is enough for the two.
    obtain ⟨enough', outcome', after, heq', hne', ht'⟩ := hn value mid ht
    refine ⟨max enough enough', outcome', after, fun fuel hfuel => ?_, hne', ht'⟩
    rw [← heq' fuel (by omega)]
    exact bind_of_done (heq fuel (by omega))
  | failed fault =>
    exact ⟨enough, .failed fault, mid, fun fuel hfuel => bind_of_failed (heq fuel hfuel), nofun, ht⟩
  | crashed =>
    exact ⟨enough, .crashed, mid, fun fuel hfuel => bind_of_crashed (heq fuel hfuel), nofun, ht⟩
  | outOfFuel => exact absurd rfl hne

/-- Two runs one after the other halt if both do, from every machine. -/
theorem Halts.bind {first : Nat → Run α} {next : α → Nat → Run β} (hf : Halts depth first)
    (hn : ∀ value, Halts depth (next value)) :
    Halts depth fun fuel => first fuel >>= fun value => next value fuel :=
  fun m ht => (hf m ht).bind hn

/-- A run that counts as one more function body halts if it does so one deeper. -/
theorem HaltsAt.deeper {run : Nat → Run α}
    (h : HaltsAt (depth + 1) run { m with depth := m.depth + 1 }) :
    HaltsAt depth (fun fuel => (run fuel).deeper) m := by
  obtain ⟨enough, outcome, after, heq, hne, ht⟩ := h
  refine ⟨enough, outcome, { after with depth := after.depth - 1 }, fun fuel hfuel => ?_, hne, ?_⟩
  · simp only [Run.deeper, heq fuel hfuel]
  · exact ⟨by rw [ht.depth_eq]; rfl, ht.whileFree⟩

end Run

/-! ## The evaluator -/

namespace Eval

variable {limit depth : Nat}

/-- All calls halt while so many function bodies are being run. -/
def CallsHalt (limit depth : Nat) : Prop :=
  ∀ callee args span, Run.Halts depth fun fuel => callValue limit fuel callee args span

mutual

/-- Expressions halt if calls do. -/
theorem evaluate_halts (hc : CallsHalt limit depth) (scope : ScopeId) (e : Expr) :
    Run.Halts depth fun fuel => evaluate limit fuel scope e := by
  -- The recursion is on the syntax; only calls leave it, and of those it is assumed.
  refine Run.Halts.succ ?_
  cases e with
  | number value span => exact Run.halts_done (Value.number value)
  | text value span => exact Run.halts_done (Value.text value)
  | bool value span => exact Run.halts_done (Value.bool value)
  | null span => exact Run.halts_done Value.null
  | name name span => exact Run.halts_ask span fun store => store.get scope name
  | binary op left right span =>
    exact (evaluate_halts hc scope left).bind fun first =>
      (evaluate_halts hc scope right).bind fun second =>
        Run.halts_ask span fun store => store.binary op first second
  | logical op left right span =>
    refine (evaluate_halts hc scope left).bind fun value => ?_
    split
    · exact Run.halts_done value
    · exact evaluate_halts hc scope right
  | unary op operand span =>
    exact (evaluate_halts hc scope operand).bind fun value =>
      Run.halts_ask span fun store => store.unary op value
  | assign name value span =>
    refine (evaluate_halts hc scope value).bind fun found => ?_
    simp only [Run.attempt_assign]
    refine (Run.halts_change fun store => ?_).bind fun _ => Run.halts_done found
    rfl
  | call callee args span =>
    exact (evaluate_halts hc scope callee).bind fun f =>
      (evaluateAll_halts hc scope args).bind fun values => hc f values span
  | methodCall object method args span =>
    exact (evaluate_halts hc scope object).bind fun found =>
      (evaluateAll_halts hc scope args).bind fun values =>
        Run.halts_within span (.inl (Method.call_oblivious found method values))
  | member object name span =>
    exact (evaluate_halts hc scope object).bind fun found =>
      Run.halts_ask span fun store => store.member found name
  | array elements span =>
    refine (evaluateAll_halts hc scope elements).bind fun values => ?_
    refine Run.Halts.bind (fun m ht => ?_) fun id => Run.halts_done (Value.array id)
    exact Run.haltsAt_const nofun (ht.congr rfl rfl)
  | index object index span =>
    exact (evaluate_halts hc scope object).bind fun found =>
      (evaluate_halts hc scope index).bind fun place =>
        Run.halts_ask span fun store => store.index found place

/-- Several expressions halt if calls do. -/
theorem evaluateAll_halts (hc : CallsHalt limit depth) (scope : ScopeId) (es : List Expr) :
    Run.Halts depth fun fuel => evaluateAll limit fuel scope es := by
  refine Run.Halts.succ ?_
  cases es with
  | nil => exact Run.halts_done []
  | cons e es =>
    exact (evaluate_halts hc scope e).bind fun value =>
      (evaluateAll_halts hc scope es).bind fun values => Run.halts_done (value :: values)

end

/-- The rounds of a loop halt if each round does. -/
theorem executeFor_halts {body : Stmt}
    (hb : ∀ scope, Run.Halts depth fun fuel => execute limit fuel scope body) (scope : ScopeId)
    (binder : String) (items : List Value) (last : Value) :
    Run.Halts depth fun fuel => executeFor limit fuel scope binder items body last := by
  -- The induction is on the items, which are those that the array had when the loop began.
  induction items generalizing last with
  | nil => exact Run.Halts.succ (Run.halts_done (Flow.normal last))
  | cons item items ih =>
    intro m ht
    have hround := hb m.store.nextScope _ (ht.opened scope [binder] [item])
    refine Run.HaltsAt.succ (fun fuel => executeFor_cons limit fuel scope binder item items body
      last m) (hround.bind fun flow => ?_)
    cases flow with
    | normal value => exact ih value
    | returned value => exact Run.halts_done (Flow.returned value)

mutual

/-- Statements without `while` halt if calls do. -/
theorem execute_halts (hc : CallsHalt limit depth) (s : Stmt) (hw : s.whileFree)
    (scope : ScopeId) : Run.Halts depth fun fuel => execute limit fuel scope s := by
  cases s with
  | expr e =>
    exact Run.Halts.succ ((evaluate_halts hc scope e).bind fun value =>
      Run.halts_done (Flow.normal value))
  | block body span =>
    intro m ht
    exact Run.HaltsAt.succ (fun fuel => execute_block limit fuel scope body span m)
      (executeAll_halts hc body hw m.store.nextScope .null _ (ht.opened scope [] []))
  | cond condition yes no span =>
    refine Run.Halts.succ ((evaluate_halts hc scope condition).bind fun value => ?_)
    cases no with
    | none =>
      split
      · exact execute_halts hc yes hw scope
      · exact Run.halts_done (Flow.normal .null)
    | some no =>
      rw [Stmt.whileFree, Bool.and_eq_true] at hw
      split
      · exact execute_halts hc yes hw.1 scope
      · exact execute_halts hc no hw.2 scope
  | whileLoop condition body span => cases hw
  | forLoop binder items body span =>
    refine Run.Halts.succ ((evaluate_halts hc scope items).bind fun value => ?_)
    exact (Run.halts_ask span (loopItems value)).bind fun found =>
      executeFor_halts (execute_halts hc body hw) scope binder found .null
  | function name params body span =>
    refine Run.Halts.succ (Run.Halts.bind (fun m ht => ?_) fun id => ?_)
    · -- The body of the new closure is part of the statement, so it has no `while` either.
      exact Run.haltsAt_const nofun (ht.newClosure hw)
    · refine (Run.halts_change fun store => ?_).bind fun _ =>
        Run.halts_done (Flow.normal (.function id))
      rfl
  | giveBack value span =>
    cases value with
    | none => exact Run.Halts.succ (Run.halts_done (Flow.returned .null))
    | some e =>
      exact Run.Halts.succ ((evaluate_halts hc scope e).bind fun value =>
        Run.halts_done (Flow.returned value))
  | importing library nickname span => exact Run.Halts.succ (Run.halts_done (Flow.normal .null))

/-- Statements one after the other without `while` halt if calls do. -/
theorem executeAll_halts (hc : CallsHalt limit depth) (body : List Stmt)
    (hw : Program.whileFree body) (scope : ScopeId) (last : Value) :
    Run.Halts depth fun fuel => executeAll limit fuel scope body last := by
  refine Run.Halts.succ ?_
  cases body with
  | nil => exact Run.halts_done (Flow.normal last)
  | cons s body =>
    rw [Program.whileFree, Bool.and_eq_true] at hw
    refine (execute_halts hc s hw.1 scope).bind fun flow => ?_
    cases flow with
    | normal value => exact executeAll_halts hc body hw.2 scope value
    | returned value => exact Run.halts_done (Flow.returned value)

end

/-- Calls halt if they do one deeper, where that is allowed. -/
theorem callsHalt_of_deeper (h : depth < limit → CallsHalt limit (depth + 1)) :
    CallsHalt limit depth := by
  intro callee args span
  cases callee with
  | native f => exact Run.Halts.succ (Run.halts_within span (f.call_modest args))
  | function id =>
    intro m ht
    rcases callValue_function limit id args span m with ⟨fault, hf⟩ | ⟨f, hf, hlt, hcall⟩
    · exact Run.HaltsAt.succ hf (Run.haltsAt_const nofun ht)
    · -- The body is one of the store, so that it is free of `while` by the invariant.
      have hw : Program.whileFree f.body := ht.whileFree f (Array.mem_of_getElem? hf)
      rw [ht.depth_eq] at hlt
      have hopened := ht.opened f.scope f.params args
      have hbody := executeAll_halts (h hlt) f.body hw m.store.nextScope .null
        { m.opened f.scope f.params args with depth := m.depth + 1 }
        ⟨by rw [ht.depth_eq], hopened.whileFree⟩
      exact Run.HaltsAt.succ hcall (hbody.deeper.bind fun flow => Run.halts_done flow.callResult)
  | _ =>
    refine Run.Halts.succ fun m ht => ?_
    exact ⟨0, .failed ⟨.notCallable _, some span⟩, m, fun _ _ => rfl, nofun, ht⟩

/-- All calls halt, whatever the limit and the number of function bodies being run. -/
theorem callsHalt (limit depth : Nat) : CallsHalt limit depth := by
  -- The induction is on the number of calls that may still be nested.
  induction hn : limit - depth generalizing depth with
  | zero => exact callsHalt_of_deeper fun hlt => by omega
  | succ n ih => exact callsHalt_of_deeper fun _ => ih (depth + 1) (by omega)

/-- A program without `while` halts on every tame machine. -/
theorem runProgram_halts (limit : Nat) (program : Program) (hw : program.whileFree)
    (last : Value) : Run.Halts depth fun fuel => runProgram limit fuel last program := by
  induction program generalizing last with
  | nil => exact Run.halts_done last
  | cons s rest ih =>
    rw [Program.whileFree, Bool.and_eq_true] at hw
    refine (execute_halts (callsHalt limit depth) s hw.1 Store.globalScope).bind fun flow => ?_
    cases flow with
    | normal value => exact ih hw.2 value
    | returned value => exact fun m ht => Run.haltsAt_const nofun ht

end Eval

/-- Binding library functions adds no closure. -/
theorem Session.closures_libraryStore (natives : List Native) :
    (Session.libraryStore natives).closures = #[] := by
  refine libraryStore_rec (motive := fun store => store.closures = #[]) rfl fun store h f _ => ?_
  exact h

/-- A fresh machine runs no function body and has no closures. -/
theorem Session.start_tame (natives : List Native) (limit fuel : Nat) (input : List String)
    (dice : Dice) : (Session.start natives limit fuel input dice).machine.Tame 0 := by
  refine ⟨rfl, fun f hf => ?_⟩
  have hclosures : (Session.start natives limit fuel input dice).machine.store.closures = #[] :=
    closures_libraryStore natives
  rw [hclosures] at hf
  exact absurd hf (Array.not_mem_empty f)

/-- A program without `while`, run from a fresh machine with any library functions, limit, input and
draws, comes to an end, given enough fuel, and always in the same way: with a value or a fault,
unless a library function is called that asks for a matrix no room can be made for. -/
theorem Session.whileFree_terminates (natives : List Native) (limit : Nat) (input : List String)
    (dice : Dice) (program : Program) (hw : program.whileFree) :
    ∃ enough outcome after,
      (∀ fuel ≥ enough,
        (start natives limit fuel input dice).run program = (outcome, ⟨after, limit, fuel⟩)) ∧
      ((∃ value, outcome = .done value) ∨ (∃ fault, outcome = .failed fault) ∨
        outcome = .crashed ∧ ∀ fuel ≥ enough,
          Eval.Overfilled limit fuel program (start natives limit fuel input dice).machine) := by
  obtain ⟨enough, outcome, after, heq, hne, -⟩ :=
    Eval.runProgram_halts limit program hw .null _ (start_tame natives limit 0 input dice)
  have hrun (fuel : Nat) (hfuel : fuel ≥ enough) :
      (start natives limit fuel input dice).run program = (outcome, ⟨after, limit, fuel⟩) := by
    have hprogram : Eval.runProgram limit fuel .null program
        (start natives limit fuel input dice).machine = (outcome, after) := heq fuel hfuel
    exact congrArg (fun found => (found.1, (⟨found.2, limit, fuel⟩ : Session))) hprogram
  refine ⟨enough, outcome, after, hrun, ?_⟩
  cases outcome with
  | done value => exact .inl ⟨value, rfl⟩
  | failed fault => exact .inr (.inl ⟨fault, rfl⟩)
  | crashed =>
    refine .inr (.inr ⟨rfl, fun fuel hfuel => ?_⟩)
    exact Eval.overfilled_of_crashed (congrArg Prod.fst (heq fuel hfuel))
  | outOfFuel => exact absurd rfl hne

/-- A function that loops through an array, adds to it in each round and calls itself, and a call of
it: `function f(a) { for (x in a) { a.push(x); f(a) } }` and `f([null])`. -/
def growingProgram : Program :=
  [.function "f" ["a"]
    [.forLoop "x" (.name "a" .anywhere)
      (.block
        [.expr (.methodCall (.name "a" .anywhere) "push" [.name "x" .anywhere] .anywhere),
         .expr (.call (.name "f" .anywhere) [.name "a" .anywhere] .anywhere)]
        .anywhere)
      .anywhere]
    .anywhere,
   .expr (.call (.name "f" .anywhere) [.array [.null .anywhere] .anywhere] .anywhere)]

/-- The function that feeds its own loop comes to an end. -/
theorem Session.growingProgram_terminates :
    growingProgram.whileFree ∧ ∃ enough outcome after,
      (∀ fuel ≥ enough, (start Native.library 8 fuel [] .zeros).run growingProgram =
        (outcome, ⟨after, 8, fuel⟩)) ∧
      ((∃ value, outcome = .done value) ∨ (∃ fault, outcome = .failed fault) ∨
        outcome = .crashed ∧ ∀ fuel ≥ enough,
          Eval.Overfilled 8 fuel growingProgram (start Native.library 8 fuel [] .zeros).machine) :=
  ⟨rfl, whileFree_terminates Native.library 8 [] .zeros growingProgram rfl⟩

end QuantumScript
