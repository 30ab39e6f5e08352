import QuantumScript.Proofs.Run.Depth
import QuantumScript.Proofs.Run.Origin

/-!
# The functions that a run enters

The account of a run changes texts only where a function is entered: what is run comes from the text
that was begun with or from that of a function whose body has been started. `Account.From` says so
of an account, new closures included. Every step keeps it (`Plan.account_from`), and so does every
run of a program (`Eval.account_from`).
-/

namespace QuantumScript

open Eval

namespace Account

variable {G : String → Prop} {known : List String} {account : Account}

/-- The code that is run, and that of the closures beyond those that were known, comes from texts of
a certain kind. -/
structure From (G : String → Prop) (known : List String) (account : Account) : Prop where
  /-- The code that is being run comes from such a text. -/
  current : G account.current
  /-- The new closures come from such texts. -/
  closures : ∃ added, account.closures = known ++ added ∧ ∀ text ∈ added, G text

/-- New closures come from the text that is being run. -/
theorem From.noting (h : account.From G known) (m : Machine) : (account.noting m).From G known := by
  obtain ⟨added, hclosures, hadded⟩ := h.closures
  refine ⟨h.current, added ++ List.replicate (m.store.closures.size - account.closures.length)
    account.current, ?_, fun text htext => ?_⟩
  · rw [← List.append_assoc, ← hclosures]
    rfl
  · rcases List.mem_append.1 htext with hmem | hmem
    · exact hadded text hmem
    · rw [List.eq_of_mem_replicate hmem]
      exact h.current

/-- The body of a function comes from such a text, if that of its closure is one. -/
theorem From.entering (h : account.From G known) {id : ClosureId}
    (hid : ∀ text, known[id.index]? = some text → G text) :
    (account.entering id).From G known := by
  obtain ⟨added, hclosures, hadded⟩ := h.closures
  refine ⟨?_, h.closures⟩
  show G (account.closures.getD id.index account.current)
  rw [List.getD_eq_getElem?_getD, hclosures]
  by_cases hlt : id.index < known.length
  · rw [List.getElem?_append_left hlt, List.getElem?_eq_getElem hlt]
    exact hid _ (List.getElem?_eq_getElem hlt)
  · rw [List.getElem?_append_right (by omega)]
    cases hfound : added[id.index - known.length]? with
    | none => exact h.current
    | some text => exact hadded text (List.mem_of_getElem? hfound)

/-- The code that started a task comes from such a text again. -/
theorem From.returning {outer : Account} (h : account.From G known) (houter : outer.From G known) :
    (account.returning outer).From G known :=
  ⟨houter.current, h.closures⟩

end Account

/-- What a plan runs comes from texts of a certain kind, if what the tasks run does that it starts
and the functions that it enters come from such texts. -/
theorem Plan.account_from {start : (task : Task) → Run task.Yield}
    {inside : Task → Machine → Account → Account} {G : String → Prop} {known : List String}
    {α : Type} {plan : Plan α} {m : Machine} {account : Account}
    (hstart : ∀ entered t after, plan.Starts start m entered t after →
      (∀ id ∈ entered, ∀ text, known[id.index]? = some text → G text) ∧
        ∀ account : Account, account.From G known → (inside t after account).From G known)
    (h : account.From G known) : (plan.account start inside m account).From G known := by
  induction plan generalizing m account with
  | step run => exact h.noting _
  | task t => exact (hstart none t m ⟨rfl, rfl, rfl⟩).2 account h
  | body id t =>
    obtain ⟨hid, hinside⟩ := hstart (some id) t _ ⟨rfl, rfl, rfl⟩
    exact hinside _ (h.entering (hid id rfl))
  | andThen first next ihf ihn =>
    have hfound := ihf (fun entered t after hs => hstart entered t after (.inl hs)) h
    unfold Plan.account
    dsimp only
    split
    · rename_i value mid hdone
      refine ihn value (fun entered t after hs => ?_) (hfound.returning h)
      exact hstart entered t after (.inr ⟨value, mid, hdone, hs⟩)
    all_goals exact hfound

namespace Eval

variable {limit fuel : Nat} {program : Program} {begins m : Machine} {known : List String}
  {G : String → Prop} {left : Nat} {active : List ClosureId} {t : Task} {account : Account}

/-- While a program is run from a machine with some fuel, the body of a function is started. -/
def Enters (limit fuel : Nat) (program : Program) (begins : Machine) (id : ClosureId) : Prop :=
  ∃ left active t m, Reached limit fuel program begins left (id :: active) t m

/-- What a task runs that is reached comes from texts of a certain kind, if the functions that are
entered come from such texts. -/
theorem Reached.account_from
    (hG : ∀ id, Enters limit fuel program begins id →
      ∀ text, known[id.index]? = some text → G text)
    (hreached : Reached limit fuel program begins left active t m) (h : account.From G known) :
    (t.account limit left m account).From G known := by
  -- The induction is on the fuel that is left, of which the tasks that are started have less.
  induction left generalizing active t m account with
  | zero => exact h
  | succ left ih =>
    refine Plan.account_from (fun entered u after hs => ?_) h
    have hnext := Reached.task hreached hs
    refine ⟨?_, fun account haccount => ih hnext haccount⟩
    rintro id rfl
    exact hG id ⟨left, active, u, after, hnext⟩

/-- What a program runs comes from texts of a certain kind, if the program does and the functions
that are entered come from such texts. -/
theorem account_from
    (hG : ∀ id, Enters limit fuel program begins id →
      ∀ text, known[id.index]? = some text → G text)
    (h : account.From G known) : (program.account limit fuel begins account).From G known := by
  refine Plan.account_from (fun entered t after hs => ?_) h
  have hreached := Reached.program hs
  refine ⟨?_, fun account haccount => hreached.account_from hG haccount⟩
  rintro id rfl
  exact hG id ⟨fuel, [], t, after, hreached⟩

end Eval

end QuantumScript
