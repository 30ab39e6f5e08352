import QuantumScript.Proofs.Run.Atomic
import QuantumScript.Proofs.Run.Effects
import QuantumScript.Proofs.Run.Plan

/-!
# Where a return comes from

A return leaves a statement only if a `return` stands in it outside the functions that are declared
in it: a call takes what its body returns as its value and returns nothing itself. And nothing but a
program one of whose own statements returns fails for a return outside of a function, neither a part
of a program nor the library. Both are one property of runs, `Run.Ends`, which a task has if the
tasks that it starts have it (`Task.ends_plan`).
-/

namespace QuantumScript

open Eval

mutual

/-- Whether a `return` stands in a statement, outside the functions that are declared in it. -/
def Stmt.returns : Stmt → Bool
  | .expr _ | .function _ _ _ _ | .importing _ _ _ => false
  | .giveBack _ _ => true
  | .block body _ => Program.returns body
  | .cond _ yes none _ => yes.returns
  | .cond _ yes (some no) _ => yes.returns || no.returns
  | .whileLoop _ body _ | .forLoop _ _ body _ => body.returns

/-- Whether a `return` stands in a program, outside the functions that are declared in it. -/
def Program.returns : Program → Bool
  | [] => false
  | s :: ss => s.returns || Program.returns ss

end

/-- A flow goes on with the next statement, or returns where that may be. -/
def Flow.Allowed (may : Bool) : Flow → Prop
  | .normal _ => True
  | .returned _ => may = true

/-- Where a part may return, the whole may. -/
theorem Flow.Allowed.imp {part whole : Bool} (himp : part = true → whole = true) {flow : Flow}
    (h : flow.Allowed part) : flow.Allowed whole := by
  cases flow with
  | normal value => trivial
  | returned value => exact himp h

/-! ## Causes -/

/-- An operator does not fail for a return. -/
theorem Store.binary_ne_error (store : Store) (op : BinaryOp) (left right : Value) :
    store.binary op left right ≠ .error .returnOutsideFunction := by
  intro h
  unfold binary arithmetic operandError at h
  grind

/-- An operator with one operand does not fail for a return. -/
theorem Store.unary_ne_error (store : Store) (op : UnaryOp) (operand : Value) :
    store.unary op operand ≠ .error .returnOutsideFunction := by
  cases op <;> cases operand <;> rintro ⟨⟩

/-- Reading a member does not fail for a return. -/
theorem Store.member_ne_error (store : Store) (object : Value) (name : String) :
    store.member object name ≠ .error .returnOutsideFunction := by
  unfold member undefinedMember
  dsimp only
  split <;> rintro ⟨⟩

/-- Finding an item does not fail for a return. -/
theorem Store.index_ne_error (store : Store) (object index : Value) :
    store.index object index ≠ .error .returnOutsideFunction := by
  cases object with
  | array id =>
    cases index with
    | number n =>
      show Except.bind (if n.isFinite then _ else _) _ ≠ _
      split
      · show itemAt (store.items id) (Number.truncate n) ≠ _
        unfold itemAt
        split <;> rintro ⟨⟩
      · rintro ⟨⟩
    | _ => rintro ⟨⟩
  | _ => rintro ⟨⟩

/-- Reading a name does not fail for a return. -/
theorem Store.get_ne_error (store : Store) (scope : ScopeId) (name : String) :
    store.get scope name ≠ .error .returnOutsideFunction := by
  unfold get
  split <;> rintro ⟨⟩

/-- Going through the items of a value does not fail for a return. -/
theorem Eval.loopItems_ne_error (items : Value) (store : Store) :
    loopItems items store ≠ .error .returnOutsideFunction := by
  cases items <;> rintro ⟨⟩

/-- The complaint about an argument is not about a return. -/
theorem Native.Complains.ne {store : Store} {args : List Value} {cause : Cause}
    (h : Complains store args cause) : cause ≠ .returnOutsideFunction := by
  obtain ⟨_, _, _, _, rfl⟩ := h
  nofun

/-- A call of the library does not fail for a return. -/
theorem Native.call_ne_error (f : Native) (args : List Value) (m : Machine) :
    (f.call args m).1 ≠ .error .returnOutsideFunction := by
  intro h
  rcases cause_of_call h with harity | hcomplains | hrange | hrange
  · cases harity
  · exact hcomplains.ne rfl
  · cases hrange
  · cases hrange

/-- A call of a method does not fail for a return. -/
theorem Method.call_ne_error (object : Value) (method : String) (args : List Value) (m : Machine) :
    (call object method args m).1 ≠ .error .returnOutsideFunction := by
  intro h
  rcases cause_of_call h with hmember | ⟨_, harity⟩ | hcomplains
  · cases hmember
  · cases harity
  · exact hcomplains.ne rfl

/-! ## Runs -/

/-- An outcome is a value of which something holds, or a fault that is not a return outside of a
function, or the run crashed or had no fuel. -/
def Outcome.Ends {α : Type} (holds : α → Prop) : Outcome α → Prop
  | .done value => holds value
  | .failed fault => fault.cause ≠ .returnOutsideFunction
  | .crashed | .outOfFuel => True

namespace Run

variable {α β : Type} {holds : α → Prop} {after : β → Prop}

/-- Whatever the machine, a run ends with a value of which something holds, or with a fault that is
not a return outside of a function, if it ends. -/
def Ends (holds : α → Prop) (run : Run α) : Prop :=
  ∀ m, (run m).1.Ends holds

/-- A run that yields a value at once ends so. -/
theorem ends_done {value : α} (h : holds value) : (Run.done value).Ends holds :=
  fun _ => h

/-- A run without fuel does not end. -/
theorem ends_outOfFuel : (Run.outOfFuel : Run α).Ends holds :=
  fun _ => trivial

/-- A question that does not fail for a return ends so. -/
theorem ends_ask (span : Span) {question : Store → Except Cause α}
    (h : ∀ store, question store ≠ .error .returnOutsideFunction) :
    (Run.ask span question).Ends fun _ => True := by
  intro m
  unfold ask
  cases hanswer : question m.store with
  | ok value => trivial
  | error cause =>
    rintro rfl
    exact h m.store hanswer

/-- A call of the library that does not fail for a return ends so. -/
theorem ends_within (span : Span) {call : Machine → Native.Result}
    (h : ∀ m, (call m).1 ≠ .error .returnOutsideFunction) :
    (Run.within span call).Ends fun _ => True := by
  intro m
  have hcall := h m
  unfold within
  generalize call m = found at hcall
  obtain ⟨answer, mid⟩ := found
  cases answer with
  | ok value => trivial
  | error cause =>
    rintro rfl
    exact hcall rfl
  | crash => trivial

/-- Changes and additions do not fail. -/
theorem ends_make (f : Store → α × Store) : (Run.make f).Ends fun _ => True :=
  fun _ => trivial

/-- Changes that yield nothing do not fail. -/
theorem ends_change (f : Store → Store) : (Run.change f).Ends fun _ => True :=
  fun _ => trivial

/-- Assignments do not fail. -/
theorem ends_assign (scope : ScopeId) (name : String) (value : Value) :
    (Run.attempt fun store => store.assign scope name value).Ends fun _ => True := by
  rw [attempt_assign]
  exact ends_change _

/-- Entering a function does not fail for a return. -/
theorem ends_enter (limit : Nat) (id : ClosureId) (args : List Value) (span : Span) :
    (enter limit id args span).Ends fun _ => True := by
  intro m
  unfold enter
  cases m.store.closure? id with
  | none => exact nofun
  | some f =>
    dsimp only
    split
    · exact nofun
    · split
      · exact nofun
      · trivial

/-- One run after another ends as the second one does, if the first ends with a value. -/
theorem Ends.andThen {first : Run α} {next : α → Run β} (hf : first.Ends holds)
    (hn : ∀ value, holds value → (next value).Ends after) : (first.andThen next).Ends after := by
  intro m
  have hfirst := hf m
  unfold Run.andThen
  generalize first m = found at hfirst
  obtain ⟨outcome, mid⟩ := found
  cases outcome with
  | done value => exact hn value hfirst mid
  | failed fault => exact hfirst
  | crashed | outOfFuel => trivial

/-- A run that counts as one more function body ends as it does otherwise. -/
theorem Ends.deeper {run : Run α} (h : run.Ends holds) : (Run.deeper run).Ends holds :=
  fun m => h { m with depth := m.depth + 1 }

/-- Less may be asked of the value that a run ends with. -/
theorem Ends.imp {run : Run α} {weaker : α → Prop} (h : run.Ends holds)
    (himp : ∀ value, holds value → weaker value) : run.Ends weaker := by
  intro m
  have hm := h m
  generalize (run m).1 = outcome at hm
  cases outcome with
  | done value => exact himp value hm
  | failed fault => exact hm
  | crashed | outOfFuel => trivial

end Run

/-! ## Tasks and programs -/

/-- What a task yields returns only if the statements that it runs do, outside of functions. -/
def Task.Allowed : (t : Task) → t.Yield → Prop
  | expr _ _ | exprs _ _ | call _ _ _ => fun _ => True
  | stmt _ s => Flow.Allowed s.returns
  | stmts _ body _ => Flow.Allowed (Program.returns body)
  | loop _ _ body _ | rounds _ _ _ body _ => Flow.Allowed body.returns

section Plans

variable {start : (task : Task) → Run task.Yield}

/-- An expression ends with some value, if the tasks that it starts end as they may. -/
theorem Expr.ends_plan (ih : ∀ t, (start t).Ends t.Allowed) (scope : ScopeId) (e : Expr) :
    ((e.plan scope).run start).Ends fun _ => True := by
  cases e with
  | number | text | bool | null => exact Run.ends_done trivial
  | name name span => exact Run.ends_ask span fun store => store.get_ne_error scope name
  | binary op left right span =>
    exact (ih (.expr scope left)).andThen fun a _ => (ih (.expr scope right)).andThen fun b _ =>
      Run.ends_ask span fun store => store.binary_ne_error op a b
  | logical op left right span =>
    refine (ih (.expr scope left)).andThen fun value _ => ?_
    dsimp only
    split
    · exact Run.ends_done trivial
    · exact ih (.expr scope right)
  | unary op operand span =>
    exact (ih (.expr scope operand)).andThen fun value _ =>
      Run.ends_ask span fun store => store.unary_ne_error op value
  | assign name value span =>
    exact (ih (.expr scope value)).andThen fun found _ =>
      (Run.ends_assign scope name found).andThen fun _ _ => Run.ends_done trivial
  | call callee args span =>
    exact (ih (.expr scope callee)).andThen fun f _ => (ih (.exprs scope args)).andThen
      fun values _ => ih (.call f values span)
  | methodCall object method args span =>
    exact (ih (.expr scope object)).andThen fun found _ => (ih (.exprs scope args)).andThen
      fun values _ => Run.ends_within span (Method.call_ne_error found method values)
  | member object name span =>
    exact (ih (.expr scope object)).andThen fun found _ =>
      Run.ends_ask span fun store => store.member_ne_error found name
  | array elements span =>
    exact (ih (.exprs scope elements)).andThen fun _ _ =>
      (Run.ends_make _).andThen fun _ _ => Run.ends_done trivial
  | index object place span =>
    exact (ih (.expr scope object)).andThen fun found _ => (ih (.expr scope place)).andThen
      fun index _ => Run.ends_ask span fun store => store.index_ne_error found index

/-- A call ends with some value, whatever the body returns. -/
theorem Value.ends_plan (ih : ∀ t, (start t).Ends t.Allowed) (limit : Nat) (args : List Value)
    (span : Span) (callee : Value) :
    ((callee.plan limit args span).run start).Ends fun _ => True := by
  cases callee with
  | native f => exact Run.ends_within span (f.call_ne_error args)
  | function id =>
    exact (Run.ends_enter limit id args span).andThen fun found _ =>
      (ih (.stmts found.1 found.2 .null)).deeper.andThen fun _ _ => Run.ends_done trivial
  | _ => exact Run.ends_ask span fun _ => nofun

/-- A statement returns only if a `return` stands in it, if the tasks that it starts end as they
may. -/
theorem Stmt.ends_plan (ih : ∀ t, (start t).Ends t.Allowed) (scope : ScopeId) (s : Stmt) :
    ((s.plan scope).run start).Ends (Flow.Allowed s.returns) := by
  cases s with
  | expr e => exact (ih (.expr scope e)).andThen fun _ _ => Run.ends_done trivial
  | block body span => exact (Run.ends_make _).andThen fun inner _ => ih (.stmts inner body .null)
  | cond condition yes no span =>
    refine (ih (.expr scope condition)).andThen fun value _ => ?_
    cases no with
    | none =>
      dsimp only
      split
      · exact ih (.stmt scope yes)
      · exact Run.ends_done trivial
    | some no =>
      -- Either branch may return for the whole.
      dsimp only
      split
      · exact (ih (.stmt scope yes)).imp fun _ =>
          Flow.Allowed.imp fun h => by rw [Stmt.returns, h, Bool.true_or]
      · exact (ih (.stmt scope no)).imp fun _ =>
          Flow.Allowed.imp fun h => by rw [Stmt.returns, h, Bool.or_true]
  | whileLoop condition body span => exact ih (.loop scope condition body .null)
  | forLoop binder items body span =>
    exact (ih (.expr scope items)).andThen fun value _ =>
      (Run.ends_ask span (loopItems_ne_error value)).andThen fun found _ =>
        ih (.rounds scope binder found body .null)
  | function name params body span =>
    exact (Run.ends_make _).andThen fun _ _ => (Run.ends_change _).andThen fun _ _ =>
      Run.ends_done trivial
  | giveBack value span =>
    cases value with
    | none => exact Run.ends_done rfl
    | some e => exact (ih (.expr scope e)).andThen fun _ _ => Run.ends_done rfl
  | importing => exact Run.ends_done trivial

/-- What follows a statement returns where that may be, if the statement does and so does what comes
after its value. -/
theorem Flow.ends_plan {go : Value → Plan Flow} {may : Bool}
    (h : ∀ value, ((go value).run start).Ends (Flow.Allowed may)) {flow : Flow}
    (hflow : flow.Allowed may) : ((flow.plan go).run start).Ends (Flow.Allowed may) := by
  cases flow with
  | normal value => exact h value
  | returned value => exact Run.ends_done hflow

/-- A task ends as it may, if the tasks that it starts do. -/
theorem Task.ends_plan (ih : ∀ t, (start t).Ends t.Allowed) (limit : Nat) (t : Task) :
    ((t.plan limit).run start).Ends t.Allowed := by
  cases t with
  | expr scope e => exact e.ends_plan ih scope
  | exprs scope es =>
    cases es with
    | nil => exact Run.ends_done trivial
    | cons e es =>
      exact (ih (.expr scope e)).andThen fun _ _ => (ih (.exprs scope es)).andThen fun _ _ =>
        Run.ends_done trivial
  | call callee args span => exact callee.ends_plan ih limit args span
  | stmt scope s => exact s.ends_plan ih scope
  | stmts scope body last =>
    cases body with
    | nil => exact Run.ends_done trivial
    | cons s body =>
      have hfirst {flow : Flow} : flow.Allowed s.returns →
          flow.Allowed (Program.returns (s :: body)) :=
        Flow.Allowed.imp fun h => by rw [Program.returns, h, Bool.true_or]
      have hrest (value : Value) : (start (.stmts scope body value)).Ends
          (Flow.Allowed (Program.returns (s :: body))) :=
        (ih (.stmts scope body value)).imp fun _ =>
          Flow.Allowed.imp fun h => by rw [Program.returns, h, Bool.or_true]
      exact (ih (.stmt scope s)).andThen fun _ hflow => Flow.ends_plan hrest (hfirst hflow)
  | loop scope condition body last =>
    refine (ih (.expr scope condition)).andThen fun value _ => ?_
    dsimp only
    split
    · have hrest (value : Value) : (start (.loop scope condition body value)).Ends
          (Flow.Allowed body.returns) := ih (.loop scope condition body value)
      exact (ih (.stmt scope body)).andThen fun _ hflow => Flow.ends_plan hrest hflow
    · exact Run.ends_done trivial
  | rounds scope binder items body last =>
    cases items with
    | nil => exact Run.ends_done trivial
    | cons item items =>
      have hrest (value : Value) : (start (.rounds scope binder items body value)).Ends
          (Flow.Allowed body.returns) := ih (.rounds scope binder items body value)
      exact (Run.ends_make _).andThen fun inner _ => (Run.ends_change _).andThen fun _ _ =>
        (ih (.stmt inner body)).andThen fun _ hflow => Flow.ends_plan hrest hflow

end Plans

/-- A task returns only if a `return` stands in what it runs, and does not fail for one. -/
theorem Task.ends (limit fuel : Nat) (t : Task) : (t.run limit fuel).Ends t.Allowed := by
  -- The tasks that a task starts have one unit of fuel less.
  induction fuel generalizing t with
  | zero =>
    rw [run_zero]
    exact Run.ends_outOfFuel
  | succ fuel ih =>
    rw [run_succ]
    exact ends_plan ih limit t

/-- A program without a `return` outside of functions does not fail for one. -/
theorem Eval.runProgram_ends (limit fuel : Nat) (last : Value) {program : Program}
    (h : program.returns = false) : (runProgram limit fuel last program).Ends fun _ => True := by
  induction program generalizing last with
  | nil => exact Run.ends_done trivial
  | cons s rest ih =>
    rw [Program.returns, Bool.or_eq_false_iff] at h
    refine Run.Ends.andThen (Task.ends limit fuel (.stmt Store.globalScope s)) fun flow hflow => ?_
    cases flow with
    | normal value => exact ih value h.2
    | returned value => exact absurd (h.1.symm.trans hflow) Bool.false_ne_true

end QuantumScript
