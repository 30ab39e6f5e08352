import QuantumScript.Proofs.Parser.Join
import QuantumScript.Proofs.Run.Twin
import QuantumScript.Session

/-!
# Texts run one after the other

Running two texts one after the other in a session comes to the same as running them once, joined by
a line end: what the first leaves is what the second starts on, for every run gives back the depth
that it began with (`Session.eval_join_of_done`). If the first text fails, the joined text fails in
the same way at the same place (`Session.eval_join_of_stopped`). Only places tell the two apart, and
no run looks at them.
-/

namespace QuantumScript

/-- A machine without the places in its closures. -/
def Machine.bare (m : Machine) : Machine :=
  { m with store := m.store.bare }

/-- A machine with other lines of input. -/
def Machine.hearing (m : Machine) (lines : List String) : Machine :=
  { m with console := { m.console with pending := lines } }

/-- How a run ended, its value and the place of its fault aside. -/
def Outcome.ending {α : Type} : Outcome α → Outcome Unit
  | .done _ => .done ()
  | .failed fault => .failed fault.bare
  | .crashed => .crashed
  | .outOfFuel => .outOfFuel

/-- Without new lines in place of old ones, the twin of a machine is the machine without places. -/
theorem Machine.twin_nil (m : Machine) : m.twin [] [] = m.bare := by
  simp [twin, bare, replaceEnd]

/-- The twin of a machine is the machine on the new lines, without places. -/
theorem Machine.twin_eq_bare {m : Machine} {old taken : List String}
    (h : m.console.pending = taken ++ old) (new : List String) :
    m.twin old new = (m.hearing (taken ++ new)).bare := by
  unfold twin bare hearing
  rw [h, replaceEnd_append]

/-- Outcomes that differ at most in places are endings of the same kind. -/
theorem Outcome.ending_of_bare {α : Type} {a b : Outcome α} (h : a.bare = b.bare) :
    a.ending = b.ending := by
  have hbare (o : Outcome α) : o.bare.ending = o.ending := by
    cases o with
    | failed fault => exact congrArg Outcome.failed fault.bare_bare
    | _ => rfl
  rw [← hbare a, h, hbare]

/-- Only an outcome with a value differs in no place from it. -/
theorem Outcome.eq_done_of_bare {α : Type} {o : Outcome α} {value : α}
    (h : o.bare = (Outcome.done value).bare) : o = .done value := by
  cases o with
  | done found => exact h
  | failed => cases h
  | crashed => cases h
  | outOfFuel => cases h

namespace Eval

variable {limit fuel : Nat} {last value : Value} {p : Program} {m mid : Machine}

/-- Two programs one after the other run as the first of them and then the second. -/
theorem runProgram_append (limit fuel : Nat) (last : Value) (p q : Program) (m : Machine) :
    runProgram limit fuel last (p ++ q) m =
      (runProgram limit fuel last p >>= fun value => runProgram limit fuel value q) m := by
  induction p generalizing last m with
  | nil => rfl
  | cons s p ih =>
    rw [List.cons_append, runProgram, runProgram]
    -- Only a first statement that ends normally is followed by anything.
    cases hs : execute limit fuel Store.globalScope s m with
    | mk outcome after =>
      cases outcome with
      | done flow =>
        rw [Run.bind_of_done hs, Run.bind_congr (Run.bind_of_done hs)]
        cases flow with
        | normal value => exact ih value after
        | returned value => rfl
      | failed fault =>
        rw [Run.bind_of_failed hs, Run.bind_of_failed (Run.bind_of_failed hs)]
      | crashed =>
        rw [Run.bind_of_crashed hs, Run.bind_of_crashed (Run.bind_of_crashed hs)]
      | outOfFuel =>
        rw [Run.bind_of_outOfFuel hs, Run.bind_of_outOfFuel (Run.bind_of_outOfFuel hs)]

/-- A program that yields a value is followed by the rest. -/
theorem runProgram_append_of_done (q : Program)
    (h : runProgram limit fuel last p m = (.done value, mid)) :
    runProgram limit fuel last (p ++ q) m = runProgram limit fuel value q mid := by
  rw [runProgram_append, Run.bind_of_done h]

/-- A program that yields no value is not followed by the rest. -/
theorem runProgram_append_of_stopped (q : Program)
    (h : ∀ value, (runProgram limit fuel last p m).1 ≠ .done value) :
    runProgram limit fuel last (p ++ q) m = runProgram limit fuel last p m := by
  rw [runProgram_append]
  cases hp : runProgram limit fuel last p m with
  | mk outcome after =>
    rw [hp] at h
    cases outcome with
    | done value => exact absurd rfl (h value)
    | failed fault => exact Run.bind_of_failed hp
    | crashed => exact Run.bind_of_crashed hp
    | outOfFuel => exact Run.bind_of_outOfFuel hp

/-- A program gives back the depth that it began with. -/
theorem runProgram_depth (limit fuel : Nat) (last : Value) (p : Program) (m : Machine) :
    (runProgram limit fuel last p m).2.depth = m.depth := by
  -- A program does nothing but what its statements do, and those give back the depth.
  have heffected : (runProgram limit fuel last p).Effected (some Store.globalScope) := by
    induction p generalizing last with
    | nil => exact Run.effected_done last
    | cons s p ih =>
      refine ((effected limit fuel).execute Store.globalScope s).bind fun flow => ?_
      cases flow with
      | normal value => exact ih value
      | returned value => exact fun m => .refl m
  exact (heffected m).depth_eq

end Eval

namespace Session

variable {old new : List String} {a b c session mid : Session} {p q : Program} {value : Value}

/-- A session with other lines of input. -/
def hearing (session : Session) (lines : List String) : Session :=
  { session with machine := session.machine.hearing lines }

/-- Lines of input that are there already make no difference. -/
theorem hearing_eq_self {lines : List String} (h : session.machine.console.pending = lines) :
    session.hearing lines = session := by
  rw [← h]
  rfl

/-- Two sessions are the same but for the places in their closures. -/
structure Same (a b : Session) : Prop where
  /-- Calls may nest equally deep. -/
  limit_eq : a.limit = b.limit
  /-- Texts are run with the same fuel. -/
  fuel_eq : a.fuel = b.fuel
  /-- The machines are the same, places aside. -/
  machine_eq : a.machine.bare = b.machine.bare

/-- A session is the same as itself. -/
theorem Same.refl (session : Session) : session.Same session := ⟨rfl, rfl, rfl⟩

/-- Sessions that are the same as a third are the same. -/
theorem Same.trans (h : a.Same b) (h' : b.Same c) : a.Same c :=
  ⟨h.limit_eq.trans h'.limit_eq, h.fuel_eq.trans h'.fuel_eq, h.machine_eq.trans h'.machine_eq⟩

/-- A run of a program in a session is one from depth zero. -/
theorem run_eq (session : Session) (p : Program) :
    session.run p =
      ((Eval.runProgram session.limit session.fuel .null p { session.machine with depth := 0 }).1,
        { session with
          machine := (Eval.runProgram session.limit session.fuel .null p
            { session.machine with depth := 0 }).2 }) :=
  rfl

/-- In a session with other lines behind those that a program takes as input, the program does the
same, places aside. -/
theorem run_twin (hend : old = [] → new = []) (hm : a.machine.twin old new = b.machine.bare)
    (hlimit : a.limit = b.limit) (hfuel : a.fuel = b.fuel) (hpq : p.Same q)
    (hleft : old <:+ (a.run p).2.machine.console.pending) :
    (b.run q).1.bare = (a.run p).1.bare ∧
      (a.run p).2.machine.twin old new = (b.run q).2.machine.bare := by
  obtain ⟨m, limit, fuel⟩ := a
  obtain ⟨m', limit', fuel'⟩ := b
  cases hlimit
  cases hfuel
  have hstart : Machine.twin old new { m with depth := 0 } =
      Machine.twin [] [] { m' with depth := 0 } := by
    rw [Machine.twin_nil]
    exact congrArg (fun m : Machine => { m with depth := 0 }) hm
  -- Both runs have the same twin: the program without places on the machine without places.
  have ha := (Eval.runProgram_twins hend limit fuel .null p { m with depth := 0 }).2 hleft
  have hb := (Eval.runProgram_twins (fun h => h) limit fuel .null q
    { m' with depth := 0 }).2 List.nil_suffix
  have hbare : p.bare = q.bare := hpq
  rw [hstart, hbare, hb, Prod.mk.injEq, Machine.twin_nil] at ha
  exact ⟨ha.1, ha.2.symm⟩

/-- A program leaves the end of its input. -/
theorem pending_run (session : Session) (p : Program) :
    (session.run p).2.machine.console.pending <:+ session.machine.console.pending :=
  (Eval.runProgram_twins (fun h : [] = [] => h) session.limit session.fuel .null p
    { session.machine with depth := 0 }).1

/-- Programs that are the same do the same in sessions that are the same. -/
theorem run_same (h : a.Same b) (hpq : p.Same q) :
    (b.run q).1.bare = (a.run p).1.bare ∧ (a.run p).2.Same (b.run q).2 := by
  have hm : a.machine.twin [] [] = b.machine.bare := by
    rw [Machine.twin_nil, h.machine_eq]
  obtain ⟨houtcome, hmachine⟩ := run_twin (fun h => h) hm h.limit_eq h.fuel_eq hpq List.nil_suffix
  rw [Machine.twin_nil] at hmachine
  exact ⟨houtcome, h.limit_eq, h.fuel_eq, hmachine⟩

/-- A program that leaves just the lines `old` of its input leaves other lines there as well. -/
theorem run_hearing {taken : List String} (hend : old = [] → new = [])
    (hleft : ((session.hearing (taken ++ old)).run p).2.machine.console.pending = old) :
    ((session.hearing (taken ++ new)).run p).1.bare =
        ((session.hearing (taken ++ old)).run p).1.bare ∧
      ((session.hearing (taken ++ new)).run p).2.Same
        (((session.hearing (taken ++ old)).run p).2.hearing new) := by
  have hsuffix : old <:+ ((session.hearing (taken ++ old)).run p).2.machine.console.pending := by
    simp only [hleft, List.suffix_refl]
  have hstart : (session.hearing (taken ++ old)).machine.twin old new =
      (session.hearing (taken ++ new)).machine.bare := Machine.twin_eq_bare rfl new
  obtain ⟨houtcome, hmachine⟩ := run_twin (q := p) hend hstart rfl rfl rfl hsuffix
  refine ⟨houtcome, rfl, rfl, hmachine.symm.trans ?_⟩
  exact Machine.twin_eq_bare (hleft.trans (List.nil_append old).symm) new

/-- A run of a program leaves the depth zero that it began with. -/
theorem depth_of_run {outcome : Outcome Value} (h : session.run p = (outcome, mid)) :
    { mid.machine with depth := 0 } = mid.machine := by
  have hdepth : (session.run p).2.machine.depth = 0 :=
    Eval.runProgram_depth session.limit session.fuel .null p { session.machine with depth := 0 }
  rw [h] at hdepth
  rw [← hdepth]

/-- A program that yields no value is not followed by another. -/
theorem run_append_of_stopped (q : Program) (h : ∀ value, (session.run p).1 ≠ .done value) :
    session.run (p ++ q) = session.run p := by
  rw [run_eq, run_eq, Eval.runProgram_append_of_stopped q h]

/-- After a program that yields a value, another one runs as it would run by itself. -/
theorem run_append_of_done (h : session.run p = (.done value, mid)) (hq : q ≠ []) :
    session.run (p ++ q) = mid.run q := by
  -- A run of its own would begin at depth zero, where the first program has left the machine.
  have hreset := depth_of_run h
  rw [run_eq, Prod.mk.injEq] at h
  obtain ⟨hvalue, rfl⟩ := h
  have hrun := Eval.runProgram_append_of_done q (Prod.ext hvalue rfl)
  cases q with
  | nil => exact absurd rfl hq
  | cons s q =>
    rw [run_eq, hrun, run_eq, hreset]
    rfl

/-! ## Texts joined by a line end -/

/-- A text that can be read is run as its program. -/
theorem eval_eq_run {s : String} (h : parseSource s = .ok p) (session : Session) :
    session.eval s = session.run p := by
  rw [eval, h]

/-- Two runs ended in the same way and left the same session, places aside. If a program had
statements, they also yielded the same value. -/
structure Agree (program : Program) (a b : Outcome Value × Session) : Prop where
  /-- They ended in the same way. -/
  ending : a.1.ending = b.1.ending
  /-- They yielded the same value. -/
  value : program ≠ [] → a.1.bare = b.1.bare
  /-- They left the same session. -/
  session : a.2.Same b.2

/-- What agrees with a third agrees, if statements that count for the third count for the first. -/
theorem Agree.trans {x y z : Outcome Value × Session} (h : Agree p x y) (h' : Agree q y z)
    (hpq : q ≠ [] → p ≠ []) : Agree q x z :=
  ⟨h.ending.trans h'.ending, fun hq => (h.value (hpq hq)).trans (h'.value hq),
    h.session.trans h'.session⟩

/-- A text does the same in sessions that are the same. -/
theorem eval_same {s : String} (hp : parseSource s = .ok p) (h : a.Same b) :
    Agree p (a.eval s) (b.eval s) := by
  rw [eval_eq_run hp, eval_eq_run hp]
  obtain ⟨houtcome, hleft⟩ := run_same h (Eq.refl p.bare)
  exact ⟨Outcome.ending_of_bare houtcome.symm, fun _ => houtcome.symm, hleft⟩

/-- If a text yields a value and leaves just the lines `old` of its input, then it yields the same
value with other lines in their place, and leaves those. -/
theorem eval_hearing {s : String} {taken : List String} (new : List String)
    (hp : parseSource s = .ok p) (hend : old = [] → new = [])
    (h : (session.hearing (taken ++ old)).eval s = (.done value, mid))
    (hleft : mid.machine.console.pending = old) :
    ∃ mid', (session.hearing (taken ++ new)).eval s = (.done value, mid') ∧
      mid'.Same (mid.hearing new) := by
  rw [eval_eq_run hp] at h ⊢
  have hrun : ((session.hearing (taken ++ old)).run p).2.machine.console.pending = old := by
    rw [h]
    exact hleft
  obtain ⟨houtcome, hsame⟩ := run_hearing hend hrun
  rw [h] at houtcome hsame
  exact ⟨_, Prod.ext (Outcome.eq_done_of_bare houtcome) rfl, hsame⟩

/-- If a text yields no value, then a text joined to it is not run. -/
theorem eval_join_of_stopped {s t : String} (hp : parseSource s = .ok p)
    (hq : parseSource t = .ok q) (h : ∀ value, (session.eval s).1 ≠ .done value) :
    session.eval (s ++ "\n" ++ t) = session.eval s := by
  obtain ⟨q', hjoin, -⟩ := parseSource_join hp hq
  rw [eval_eq_run hp] at h
  rw [eval_eq_run hp, eval_eq_run hjoin, run_append_of_stopped q' h]

/-- If a text yields a value, then a text joined to it does what it does in the session that the
first one leaves. -/
theorem eval_join_of_done {s t : String} (hp : parseSource s = .ok p) (hq : parseSource t = .ok q)
    (h : session.eval s = (.done value, mid)) :
    Agree q (session.eval (s ++ "\n" ++ t)) (mid.eval t) := by
  obtain ⟨q', hjoin, hsame⟩ := parseSource_join hp hq
  rw [eval_eq_run hp] at h
  rw [eval_eq_run hjoin, eval_eq_run hq]
  -- A text without statements yields `null` by itself, but joined it keeps the value before it.
  by_cases hempty : q = []
  · subst hempty
    have hnil : q' = [] := hsame.eq_nil
    have hmid : mid.run [] = (.done .null, mid) := by
      rw [run_eq, depth_of_run h]
      rfl
    rw [hnil, List.append_nil, h, hmid]
    exact ⟨rfl, fun hne => absurd rfl hne, .refl mid⟩
  · have hne : q' ≠ [] := by
      rintro rfl
      exact hempty (Program.Same.eq_nil hsame.symm)
    rw [run_append_of_done h hne]
    obtain ⟨houtcome, hleft⟩ := run_same (.refl mid) hsame.symm
    exact ⟨Outcome.ending_of_bare houtcome.symm, fun _ => houtcome.symm, hleft⟩

end Session

end QuantumScript
