import QuantumScript.Proofs.Program.Bare
import QuantumScript.Proofs.Run.Plan
import QuantumScript.Session

/-!
# Raising the limit on nested calls

The limit on function bodies that are run at a time is looked at only when a function is entered,
and a run that fails there fails as a whole: no loop, operator or call goes on after a fault. So a
run that does not end with that fault has never met the limit, and under a higher limit everything
is done in the same way (`Session.raised_limit_agrees`).
-/

namespace QuantumScript

open Eval

/-- A fault says that calls were nested too deeply. -/
def Fault.tooDeep (fault : Fault) : Bool :=
  match fault.cause with
  | .callDepthExceeded _ => true
  | _ => false

/-- A run has failed because calls were nested too deeply. -/
def Outcome.tooDeep {α : Type} : Outcome α → Bool
  | .failed fault => fault.tooDeep
  | _ => false

namespace Run

variable {α β : Type} {run other : Run α}

/-- Another run does the same as a run wherever that does not fail for its depth. -/
def Keeps (run other : Run α) : Prop :=
  ∀ m, (run m).1.tooDeep = false → other m = run m

/-- Where runs come one after the other, both have to be kept. -/
theorem Keeps.andThen {first first' : Run α} {next next' : α → Run β} (hf : first.Keeps first')
    (hn : ∀ value, (next value).Keeps (next' value)) :
    (first.andThen next).Keeps (first'.andThen next') := by
  intro m h
  have hfirst := hf m
  unfold Run.andThen at h ⊢
  generalize first m = found at h hfirst
  obtain ⟨outcome, mid⟩ := found
  -- The whole fails for its depth if the first part does, since nothing comes after a fault.
  cases outcome with
  | done value =>
    rw [hfirst rfl]
    exact hn value mid h
  | failed fault => rw [hfirst h]
  | crashed => rw [hfirst rfl]
  | outOfFuel => rw [hfirst rfl]

/-- A run that is kept is kept as one more function body. -/
theorem Keeps.deeper (h : run.Keeps other) : (Run.deeper run).Keeps (Run.deeper other) := by
  intro m hm
  unfold Run.deeper
  rw [h { m with depth := m.depth + 1 } hm]

end Run

namespace Eval

/-- What entering a function does short of the limit it does under a higher one. -/
theorem enter_keeps {lower upper : Nat} (hle : lower ≤ upper) (id : ClosureId) (args : List Value)
    (span : Span) : (enter lower id args span).Keeps (enter upper id args span) := by
  intro m h
  unfold enter at h ⊢
  cases hf : m.store.closure? id with
  | none => rfl
  | some f =>
    rw [hf] at h
    dsimp only at h ⊢
    split
    · rfl
    · rename_i hargs
      rw [if_neg hargs] at h
      by_cases hdepth : lower ≤ m.depth
      · rw [if_pos hdepth] at h
        cases h
      · have hupper : ¬ upper ≤ m.depth := by omega
        rw [if_neg hdepth, if_neg hupper]

end Eval

/-- A plan is kept if the tasks in it are. -/
theorem Plan.keeps {start start' : (task : Task) → Run task.Yield}
    (h : ∀ t, (start t).Keeps (start' t)) {α : Type} (plan : Plan α) :
    (plan.run start).Keeps (plan.run start') := by
  induction plan with
  | step run => exact fun _ _ => rfl
  | task t => exact h t
  | body id t => exact (h t).deeper
  | andThen first next ihf ihn => exact ihf.andThen ihn

namespace Task

/-- Only the plan of a call of a function depends on the limit. -/
theorem plan_eq_or_call (lower upper : Nat) (t : Task) :
    t.plan upper = t.plan lower ∨ ∃ id args span, t = .call (.function id) args span := by
  cases t with
  | expr scope e => exact .inl rfl
  | exprs scope es => cases es <;> exact .inl rfl
  | call callee args span =>
    cases callee with
    | function id => exact .inr ⟨id, args, span, rfl⟩
    | _ => exact .inl rfl
  | stmt scope s => exact .inl rfl
  | stmts scope body last => cases body <;> exact .inl rfl
  | loop scope condition body last => exact .inl rfl
  | rounds scope binder items body last => cases items <;> exact .inl rfl

/-- What a task does under a limit without meeting it, it does under a higher one. -/
theorem run_keeps {lower upper : Nat} (hle : lower ≤ upper) (fuel : Nat) (t : Task) :
    (t.run lower fuel).Keeps (t.run upper fuel) := by
  -- The tasks that a task starts have one unit of fuel less.
  induction fuel generalizing t with
  | zero =>
    rw [run_zero, run_zero]
    exact fun _ _ => rfl
  | succ fuel ih =>
    rw [run_succ, run_succ]
    rcases plan_eq_or_call lower upper t with hplan | ⟨id, args, span, rfl⟩
    · rw [hplan]
      exact Plan.keeps ih _
    · exact (enter_keeps hle id args span).andThen fun found =>
        (ih (.stmts found.1 found.2 .null)).deeper.andThen fun _ _ _ => rfl

end Task

/-- Where the run of a program does not fail because calls are nested too deeply, it ends in the
same way, on the same machine, under every higher limit. -/
theorem Session.raised_limit_agrees {lower upper : Nat} (hle : lower ≤ upper) (program : Program)
    (m : Machine) :
    (∀ fuel, (runProgram lower fuel .null program m).1.tooDeep = false →
      runProgram upper fuel .null program m = runProgram lower fuel .null program m) ∧
    ∀ fuel, (Session.run ⟨m, lower, fuel⟩ program).1.tooDeep = false →
      (Session.run ⟨m, upper, fuel⟩ program).1 = (Session.run ⟨m, lower, fuel⟩ program).1 ∧
        (Session.run ⟨m, upper, fuel⟩ program).2.machine =
          (Session.run ⟨m, lower, fuel⟩ program).2.machine := by
  have hkeeps (fuel : Nat) :
      (runProgram lower fuel .null program).Keeps (runProgram upper fuel .null program) := by
    rw [runProgram_eq_plan, runProgram_eq_plan]
    exact Plan.keeps (Task.run_keeps hle fuel) _
  refine ⟨fun fuel h => hkeeps fuel m h, fun fuel h => ?_⟩
  have hrun := hkeeps fuel { m with depth := 0 } h
  unfold Session.run
  dsimp only
  rw [hrun]
  exact ⟨rfl, rfl⟩

deriving instance DecidableEq for Outcome

/-- A function that calls another, and a call of it: `function f() { }`,
`function g() { return f() }` and `g()`. -/
def nestedCallProgram : Program :=
  [.function "f" [] [] .anywhere,
   .function "g" [] [.giveBack (some (.call (.name "f" .anywhere) [] .anywhere)) .anywhere]
     .anywhere,
   .expr (.call (.name "g" .anywhere) [] .anywhere)]

/-- The two nested calls fit under a limit of two, and so the program does the same under a limit of
five. -/
theorem Session.raised_limit_agrees_nested :
    2 ≤ 5 ∧
      (runProgram 2 9 .null nestedCallProgram (start [] 2 9 [] .zeros).machine).1 = .done .null ∧
      runProgram 5 9 .null nestedCallProgram (start [] 2 9 [] .zeros).machine =
        runProgram 2 9 .null nestedCallProgram (start [] 2 9 [] .zeros).machine := by
  have hdone : (runProgram 2 9 .null nestedCallProgram (start [] 2 9 [] .zeros).machine).1 =
      .done .null := by decide +kernel
  refine ⟨by decide, hdone, (raised_limit_agrees (by decide) nestedCallProgram _).1 9 ?_⟩
  rw [hdone]
  rfl

end QuantumScript
