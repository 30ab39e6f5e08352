import QuantumScript.Proofs.Cursor.Follows

/-!
# Loops and routines follow readers of lists

A loop and a routine that calls itself follow a reading that takes tokens from a shorter and shorter
list. That the list is shorter, which the readings of lists carry in their types, is all that the
checks ask for: a round that leaves a shorter list has moved the cursor, and a routine may be called
again in front of a shorter list.
-/

namespace QuantumScript

open Token Reading

namespace Cursor

variable {α β σ : Type} {items ts rest : List Token} {rank n : Nat} {reader : Cursor α}

/-! ## Loops -/

/-- What comes after a round of a loop, by how it ends. -/
def Round.elim (absent last more : σ → α) : Round σ → α
  | .absent state => absent state
  | .last state => last state
  | .more state => more state

/-- A round of a loop does what some readings do, if what comes after it does so with a shorter
list. The readings are those of the whole loop and of what follows it, from a state on. -/
def RoundFollows (items : List Token) (rank bound : Nat) (round : σ → Cursor (Round σ))
    (cont : σ → Cursor β) {size : List Token → Nat}
    (reading : σ → (ts : List Token) → Except Stuck (Found β (size ts))) : Prop :=
  ∀ state ts, ts.length ≤ bound → ∀ finish again : σ → Cursor β,
    (∀ state rest {n : Nat} {r : Except Stuck (Found β n)}, rest.length < ts.length →
      Follows items 0 (cont state) rest r → Follows items 0 (finish state) rest r) →
    (∀ state rest, rest.length < ts.length →
      Follows items 0 (again state) rest (reading state rest)) →
    Follows items rank (round state >>= Round.elim cont finish again) ts (reading state ts)

section Loops

variable {round : σ → Cursor (Round σ)} {cont : σ → Cursor β} {size : List Token → Nat}
  {reading : σ → (ts : List Token) → Except Stuck (Found β (size ts))} {bound start : Nat}

/-- The first of some rounds, and what comes after it. -/
theorem rounds_bind (limit : Nat) (state : σ) :
    rounds round (limit + 1) state >>= cont = place >>= fun start =>
      round state >>= Round.elim cont (fun state => movedFrom start >>= fun _ => cont state)
        (fun state => movedFrom start >>= fun _ => rounds round limit state >>= cont) := by
  rw [rounds, bind_assoc]
  congr 1
  funext start
  rw [bind_assoc]
  congr 1
  funext ending
  cases ending with
  | absent state => rfl
  | last state => exact bind_assoc ..
  | more state => exact bind_assoc ..

/-- With tokens taken the cursor has moved. -/
theorem follows_movedFrom {r : Except Stuck (Found α n)}
    (hstart : start + ts.length = items.length) (hshorter : rest.length < ts.length)
    (h : Follows items rank reader rest r) :
    Follows items rank (movedFrom start >>= fun _ => reader) rest r := by
  have hmoved : ∀ frame here, Faces items rank rest frame here →
      movedFrom start frame here = .ok ((), here) := by
    intro frame here hfaces
    have hsize := hfaces.size
    show (if here ≤ start then slip .idleRound else pure ()) frame here = _
    rw [if_neg (by omega)]
    rfl
  exact follows_of_ok hmoved h

/-- Rounds follow, as many as there are tokens and one more. -/
theorem follows_rounds (hround : RoundFollows items rank bound round cont reading) (limit : Nat) :
    ∀ state ts, ts.length ≤ bound → ts.length < limit →
      Follows items rank (rounds round limit state >>= cont) ts (reading state ts) := by
  -- Each round leaves a shorter list, so the rounds that are left stay more than the tokens.
  induction limit with
  | zero => exact fun _ _ _ h => absurd h (Nat.not_lt_zero _)
  | succ limit ih =>
    intro state ts hbound hlimit
    rw [rounds_bind]
    refine follows_place fun start _ hstart => hround state ts hbound _ _ ?_ ?_
    · exact fun state rest _ _ hshorter h => follows_movedFrom hstart hshorter h
    · intro state rest hshorter
      refine follows_movedFrom hstart hshorter (Follows.mono ?_ (Nat.zero_le rank))
      exact ih state rest (by omega) (by omega)

/-- A loop follows. -/
theorem follows_loop (hround : RoundFollows items rank bound round cont reading) (state : σ)
    (hbound : ts.length ≤ bound) :
    Follows items rank (loop round state >>= cont) ts (reading state ts) := fun frame here hfaces =>
  follows_rounds hround frame.allowance state ts hbound hfaces.spare frame here hfaces

end Loops

/-- Tokens are skipped as long as they satisfy a test. -/
theorem follows_skip {test : Token → Bool} {next : Unit → Cursor β} {reading : Except Stuck (Found β n)}
    (h : Follows items rank (next ()) (ts.dropWhile test) reading) :
    Follows items rank (skip test >>= next) ts reading := by
  have hround : RoundFollows items rank ts.length (fun _ => do
      if ← accept test then return .more () else return .absent ()) pure fun (_ : Unit) ts =>
      (.ok ⟨(), ts.dropWhile test, Nat.lt_succ_of_le (length_dropWhile_le test ts)⟩ :
        LooseReading Unit ts) := by
    intro _ us _ finish again hfinish hagain
    rw [bind_assoc]
    simp only [ite_bind]
    cases us with
    | nil => exact follows_reject rfl (follows_nothing () [])
    | cons t us =>
      cases ht : test t with
      | false =>
        simp only [List.dropWhile_cons, ht]
        exact follows_reject ht (follows_nothing () (t :: us))
      | true =>
        simp only [List.dropWhile_cons, ht]
        exact follows_accept ht (hagain () us (Nat.lt_succ_self _))
  have hskip := follows_loop hround () (Nat.le_refl ts.length)
  rw [bind_pure] at hskip
  exact follows_found hskip h

/-- Line ends are skipped. -/
theorem follows_skipNewlines {next : Unit → Cursor β} {reading : Except Stuck (Found β n)}
    (h : Follows items rank (next ()) (skipNewlines ts) reading) :
    Follows items rank (skip isNewline >>= next) ts reading :=
  follows_skip h

/-- A reading behind line ends. -/
theorem follows_pastNewlines {next : Unit → Cursor β}
    {next' : (rest : List Token) → rest.length ≤ ts.length → Reading β rest}
    (h : Follows items rank (next ()) (skipNewlines ts)
      (next' (skipNewlines ts) (length_skipNewlines_le ts))) :
    Follows items rank (skip isNewline >>= next) ts (pastNewlines ts next') :=
  follows_skip (follows_widen.2 h)

/-- A reading behind line ends is one behind the line ends that are left of them. -/
theorem follows_pastNewlines_skipNewlines {us : List Token}
    {next' : (rest : List Token) → Reading α rest} :
    Follows items rank reader us (pastNewlines (skipNewlines ts) fun rest _ => next' rest) ↔
      Follows items rank reader us (pastNewlines ts fun rest _ => next' rest) := by
  rw [pastNewlines, pastNewlines, follows_widen, follows_widen, skipNewlines_skipNewlines]

/-- A reading behind separators. -/
theorem follows_pastSeparators {next : Unit → Cursor β}
    {next' : (rest : List Token) → rest.length ≤ ts.length → Reading β rest}
    (h : Follows items rank (next ()) (skipSeparators ts)
      (next' (skipSeparators ts) (length_skipSeparators_le ts))) :
    Follows items rank (skip isSeparator >>= next) ts (pastSeparators ts next') :=
  follows_skip (follows_widen.2 h)

/-! ## Routines -/

section Routines

variable {body : Cursor α → Cursor α} {size : List Token → Nat}
  {reading : (ts : List Token) → Except Stuck (Found α (size ts))} {bound : Nat}

/-- A call follows what its body follows with the calls that are left. -/
theorem follows_call {routine : Routine} {r : Except Stuck (Found α n)}
    (h : Follows items (routine.rank + 1) reader ts r) :
    Follows items routine.rank (call routine reader) ts r := by
  intro frame here hfaces
  have hfloor := (hfaces.floors routine).2 (Nat.le_refl _)
  rw [call, if_neg (by omega)]
  refine h _ here ⟨hfaces.whole, hfaces.ahead, hfaces.size, fun other => ?_, hfaces.spare⟩
  -- The routine itself may be called behind the cursor now, the later ones still at it.
  by_cases hother : other = routine
  · subst hother
    simp only [if_true]
    exact ⟨Nat.le_refl _, fun hr => absurd hr (Nat.not_succ_le_self _)⟩
  · have hne : other.rank ≠ routine.rank := by
      revert hother
      cases other <;> cases routine <;> decide
    obtain ⟨hall, hfrom⟩ := hfaces.floors other
    simp only [hother, if_false]
    exact ⟨hall, fun hr => hfrom (by omega)⟩

/-- A routine that calls itself follows, as many calls deep as there are tokens and one more. -/
theorem follows_nested {p : List Token → Prop}
    (hbody : ∀ self ts, p ts →
      (∀ rest, p rest → rest.length < ts.length → Follows items 0 self rest (reading rest)) →
      Follows items rank (body self) ts (reading ts)) (limit : Nat) :
    ∀ ts, p ts → ts.length < limit → Follows items rank (nested body limit) ts (reading ts) := by
  induction limit with
  | zero => exact fun _ _ h => absurd h (Nat.not_lt_zero _)
  | succ limit ih =>
    intro ts hts hlimit
    refine hbody _ ts hts fun rest hrest hshorter => Follows.mono ?_ (Nat.zero_le rank)
    exact ih rest hrest (by omega)

/-- A routine that calls itself follows. -/
theorem follows_recursive {p : List Token → Prop}
    (hbody : ∀ self ts, p ts →
      (∀ rest, p rest → rest.length < ts.length → Follows items 0 self rest (reading rest)) →
      Follows items rank (body self) ts (reading ts)) (hts : p ts) :
    Follows items rank (recursive body) ts (reading ts) := fun frame here hfaces =>
  follows_nested hbody frame.allowance ts hts hfaces.spare frame here hfaces

/-- A routine that calls itself and is watched follows. -/
theorem follows_watched {routine : Routine}
    (hbody : ∀ self ts, ts.length ≤ bound →
      (∀ rest, rest.length < ts.length → Follows items 0 self rest (reading rest)) →
      Follows items (routine.rank + 1) (body self) ts (reading ts)) (hbound : ts.length ≤ bound) :
    Follows items routine.rank (watched routine body) ts (reading ts) := by
  refine follows_recursive (p := fun us => us.length ≤ bound) (fun self us hus hself => ?_) hbound
  refine follows_call ?_
  exact hbody self us hus fun rest hrest =>
    hself rest (Nat.le_trans (Nat.le_of_lt hrest) hus) hrest

end Routines

end Cursor

end QuantumScript
