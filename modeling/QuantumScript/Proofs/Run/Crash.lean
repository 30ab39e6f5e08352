import QuantumScript.Proofs.Run.Atomic
import QuantumScript.Proofs.Run.Depth

/-!
# Runs that crash

Of all the steps that a run consists of, only the call of a library function can crash, and it does
so exactly if it asks for a matrix that no room can be made for (`Native.Overfills`). A plan with
steady steps can crash only in a task that it starts. So a run that crashes has got to such a call
(`Eval.overfilled_of_crashed`), and one that gets to none ends with a value or a fault, or not
within its fuel.
-/

namespace QuantumScript

open Eval

namespace Run

/-- A run that does not crash. -/
def Steady {α : Type} (run : Run α) : Prop :=
  ∀ m, (run m).1 ≠ .crashed

/-- A call of the library does not crash, if it gives an answer. -/
theorem steady_within (span : Span) {call : Machine → Native.Result}
    (h : ∀ m, (call m).1 ≠ .crash) : (Run.within span call).Steady := by
  intro m
  have hne := h m
  unfold within
  generalize call m = found at hne
  obtain ⟨answer, after⟩ := found
  cases answer with
  | ok value => nofun
  | error cause => nofun
  | crash => exact absurd rfl hne

/-- The steps of a plan do not crash. -/
theorem common_steady : Common Steady where
  done _ _ := nofun
  failed _ _ _ := nofun
  ask span question m := by
    unfold ask
    cases question m.store <;> nofun
  method span object name args :=
    steady_within span fun m => Method.call_ne_crash object name args m
  change _ _ := nofun
  make _ _ := nofun

/-- Entering a function does not crash. -/
theorem steady_enter (limit : Nat) (id : ClosureId) (args : List Value) (span : Span) :
    (enter limit id args span).Steady := by
  intro m
  rcases enter_eq limit id args span m with ⟨fault, henter⟩ | ⟨f, -, -, henter⟩
  · rw [henter]
    nofun
  · rw [henter]
    nofun

/-- Of two runs one after the other that crash, the first does, or it yields a value and then the
second does. -/
theorem crashed_of_andThen {α β : Type} {first : Run α} {next : α → Run β} {m : Machine}
    (h : (first.andThen next m).1 = .crashed) :
    (first m).1 = .crashed ∨
      ∃ value mid, first m = (.done value, mid) ∧ (next value mid).1 = .crashed := by
  unfold andThen at h
  generalize first m = found at h ⊢
  obtain ⟨outcome, mid⟩ := found
  cases outcome with
  | done value => exact .inr ⟨value, mid, rfl, h⟩
  | failed fault => cases h
  | crashed => exact .inl rfl
  | outOfFuel => cases h

end Run

/-- A plan with steady steps crashes only in a task that it starts. -/
theorem Plan.Steps.starts_crashed {start : (task : Task) → Run task.Yield} {α : Type}
    {plan : Plan α} {m : Machine} (h : plan.Steps Run.Steady)
    (hcrash : (plan.run start m).1 = .crashed) :
    ∃ entered t after, plan.Starts start m entered t after ∧ (start t after).1 = .crashed := by
  induction plan generalizing m with
  | step run => exact absurd hcrash (h m)
  | task t => exact ⟨none, t, m, ⟨rfl, rfl, rfl⟩, hcrash⟩
  | body id t => exact h.elim
  | andThen first next ihf ihn =>
    rcases Run.crashed_of_andThen hcrash with hfirst | ⟨value, mid, hdone, hnext⟩
    · obtain ⟨entered, t, after, hstarts, ht⟩ := ihf h.1 hfirst
      exact ⟨entered, t, after, .inl hstarts, ht⟩
    · obtain ⟨entered, t, after, hstarts, ht⟩ := ihn value (h.2 value) hnext
      exact ⟨entered, t, after, .inr ⟨value, mid, hdone, hstarts⟩, ht⟩

namespace Eval

variable {limit fuel left : Nat} {program : Program} {begins m : Machine}
  {active : List ClosureId} {t : Task} {id : ClosureId} {args : List Value} {span : Span}

/-- A call of a function crashes only in its body. -/
theorem starts_crashed_call
    (h : (((Task.call (.function id) args span).plan limit).run (Task.run limit fuel) m).1 =
      .crashed) :
    ∃ entered t after, ((Task.call (.function id) args span).plan limit).Starts
      (Task.run limit fuel) m entered t after ∧ (t.run limit fuel after).1 = .crashed := by
  rcases Run.crashed_of_andThen h with henter | ⟨found, mid, hdone, hbody⟩
  · exact absurd henter (Run.steady_enter limit id args span m)
  · refine ⟨some id, .stmts found.1 found.2 .null, { mid with depth := mid.depth + 1 },
      .inr ⟨found, mid, hdone, .inl ⟨rfl, rfl, rfl⟩⟩, ?_⟩
    rcases Run.crashed_of_andThen hbody with hcrash | ⟨flow, after, -, hflow⟩
    · exact hcrash
    · cases hflow

/-- While a program is run from a machine with some fuel, a library function is called that asks for
a matrix no room can be made for. -/
def Overfilled (limit fuel : Nat) (program : Program) (begins : Machine) : Prop :=
  ∃ left active f args span m,
    Reached limit fuel program begins left active (.call (.native f) args span) m ∧
      f.Overfills args

/-- A task that is reached and crashes gets to a call that asks for too much. -/
theorem Reached.overfilled (h : Reached limit fuel program begins left active t m)
    (hcrash : (t.run limit left m).1 = .crashed) : Overfilled limit fuel program begins := by
  -- The induction is on the fuel that is left, of which the tasks that are started have less.
  induction left generalizing active t m with
  | zero =>
    rw [Task.run_zero] at hcrash
    cases hcrash
  | succ left ih =>
    rw [Task.run_succ] at hcrash
    rcases Task.steps_plan Run.common_steady limit t with hsteps | ⟨f, args, span, rfl⟩ |
      ⟨id, args, span, rfl⟩
    · obtain ⟨entered, u, after, hstarts, hu⟩ := hsteps.starts_crashed hcrash
      exact ih (.task h hstarts) hu
    · refine ⟨left + 1, active, f, args, span, m, h, ?_⟩
      by_contra hfits
      exact Run.steady_within span
        (fun m hc => hfits ((f.call_crashes_iff args m).1 hc)) m hcrash
    · obtain ⟨entered, u, after, hstarts, hu⟩ := starts_crashed_call hcrash
      exact ih (.task h hstarts) hu

/-- A program that crashes gets to a call that asks for a matrix no room can be made for. -/
theorem overfilled_of_crashed
    (h : (runProgram limit fuel .null program begins).1 = .crashed) :
    Overfilled limit fuel program begins := by
  rw [runProgram_eq_plan] at h
  obtain ⟨entered, t, after, hstarts, ht⟩ :=
    (Program.steps_plan Run.common_steady .null program).starts_crashed h
  exact (Reached.program hstarts).overfilled ht

end Eval

end QuantumScript
