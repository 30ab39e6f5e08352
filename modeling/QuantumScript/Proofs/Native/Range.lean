import Mathlib.Data.Set.Card
import Mathlib.Tactic.Positivity
import Mathlib.Tactic.Ring
import QuantumScript.Native.Call

/-!
# The numbers of a range

The numbers of a range are those at the places `0, 1, 2, …` of the progression from its start that
lie before its end. There are finitely many places, those below a count, and `range_call_places`
says that a range with few enough places has the number at each of them, and that all others are
refused.

The loop ends where the next number would not have 64 bits. As the end has 64 bits, that number and
all that follow lie past the end (`not_before_of_not_isWord`), so nothing is lost there.
`rangeFrom_eq` is the run of the loop from any number on, with any room left.
-/

namespace QuantumScript.Native

/-- The whole numbers of 64 bits. -/
def IsWord (i : Int) : Prop :=
  Number.least ≤ i ∧ i ≤ Number.greatest

instance : DecidablePred IsWord :=
  fun _ => inferInstanceAs (Decidable (_ ∧ _))

/-- The places of the progression from `start` by `step` whose numbers lie before `stop`, in the
direction of the step. -/
def places (start stop step : Int) : Set ℕ :=
  {k | (0 < step ∧ start + k * step < stop) ∨ (step < 0 ∧ stop < start + k * step)}

/-- The first `n` numbers of the progression from `start` by `step`. -/
def terms (start step : Int) (n : ℕ) : Array Int :=
  Array.ofFn fun k : Fin n => start + k * step

/-- There are `n` numbers before the end of a range, and all of them have 64 bits. -/
structure Counts (start stop step : Int) (n : ℕ) : Prop where
  /-- The number of places is `n`. -/
  encard_eq : (places start stop step).encard = n
  /-- The numbers at these places have 64 bits. -/
  isWord : ∀ k < n, IsWord (start + k * step)

/-- The start, the end and the step that the arguments of a range stand for. -/
def bounds? : List Value → Option (Int × Int × Int)
  | [.number stop] => some (0, Number.truncate stop, 1)
  | [.number start, .number stop] => some (Number.truncate start, Number.truncate stop, 1)
  | [.number start, .number stop, .number step] =>
    some (Number.truncate start, Number.truncate stop, Number.truncate step)
  | _ => none

/-! ### Places -/

/-- A place of a range holds a number before the end, in the direction of the step. -/
theorem mem_places {start stop step : Int} {k : ℕ} : k ∈ places start stop step ↔
    (0 < step ∧ start + k * step < stop) ∨ (step < 0 ∧ stop < start + k * step) :=
  Iff.rfl

/-- Turning a range around keeps its places. -/
theorem places_neg (start stop step : Int) :
    places (-start) (-stop) (-step) = places start stop step := by
  ext k
  have hturn : -start + k * -step = -(start + k * step) := by ring
  simp only [mem_places, hturn]
  omega

/-- A number lies before the end exactly if it is at the first place of the range from it on. -/
theorem isBefore_iff {stop step i : Int} :
    isBefore stop step i = true ↔ 0 ∈ places i stop step := by
  simp [isBefore, mem_places]

/-- The places after the first are those of the range that starts one step later. -/
theorem succ_mem_places {stop step i : Int} {k : ℕ} :
    k + 1 ∈ places i stop step ↔ k ∈ places (i + step) stop step := by
  have hshift : i + ((k + 1 : ℕ) : Int) * step = i + step + k * step := by push_cast; ring
  simp only [mem_places, hshift]

/-- With a step upwards the places are those up to a quotient. -/
theorem exists_count_of_pos {start stop step : Int} (hup : 0 < step) :
    ∃ n, ∀ k : ℕ, k ∈ places start stop step ↔ k < n := by
  refine ⟨((stop - start - 1) / step + 1).toNat, fun k => ?_⟩
  have hquotient : (k : Int) ≤ (stop - start - 1) / step ↔ k * step ≤ stop - start - 1 :=
    Int.le_ediv_iff_mul_le hup
  simp only [mem_places, Int.lt_toNat]
  omega

/-- The places of a range are those below some count. -/
theorem exists_count (start stop step : Int) :
    ∃ n, ∀ k : ℕ, k ∈ places start stop step ↔ k < n := by
  rcases lt_trichotomy step 0 with hdown | hstill | hup
  · rw [← places_neg]
    exact exists_count_of_pos (by omega)
  · exact ⟨0, fun k => by simp [mem_places, hstill]⟩
  · exact exists_count_of_pos hup

/-- A number between the start and the end of a range has 64 bits. -/
theorem isWord_of_mem {start stop step : Int} {k : ℕ} (hfirst : IsWord start) (hlast : IsWord stop)
    (hmem : k ∈ places start stop step) : IsWord (start + k * step) := by
  obtain ⟨hup, hbefore⟩ | ⟨hdown, hbefore⟩ := hmem
  · have hahead : 0 ≤ k * step := by positivity
    unfold IsWord at *
    omega
  · have hbehind : k * step ≤ 0 := mul_nonpos_of_nonneg_of_nonpos (by positivity) hdown.le
    unfold IsWord at *
    omega

/-- Between bounds of 64 bits, a range whose places are those below a count has that count. -/
theorem counts_of_count {start stop step : Int} {n : ℕ} (hfirst : IsWord start)
    (hlast : IsWord stop) (hcount : ∀ k : ℕ, k ∈ places start stop step ↔ k < n) :
    Counts start stop step n := by
  have hbelow : places start stop step = (Finset.range n : Set ℕ) := by
    ext k
    simp [hcount]
  constructor
  · rw [hbelow, Set.encard_coe_eq_coe_finsetCard, Finset.card_range]
  · intro k hlt
    exact isWord_of_mem hfirst hlast ((hcount k).2 hlt)

/-- A range has only one count. -/
theorem Counts.eq {start stop step : Int} {n k : ℕ} (hone : Counts start stop step n)
    (hother : Counts start stop step k) : n = k :=
  ENat.natCast_inj.1 (hone.encard_eq.symm.trans hother.encard_eq)

/-! ### The loop -/

/-- The next number is one step further, if that has 64 bits. -/
theorem successor?_of_isWord {step i : Int} (hword : IsWord (i + step)) :
    successor? step i = some (i + step) := by
  simp [successor?, hword.1, hword.2]

/-- There is no next number, if it would not have 64 bits. -/
theorem successor?_of_not_isWord {step i : Int} (hout : ¬ IsWord (i + step)) :
    successor? step i = none := by
  simp only [successor?, ite_eq_right_iff, Bool.and_eq_true, decide_eq_true_eq]
  intro hword
  exact absurd hword hout

/-- What a step leads to outside of 64 bits lies past the end. -/
theorem not_before_of_not_isWord {stop step i : Int} (hhere : IsWord i) (hlast : IsWord stop)
    (hout : ¬ IsWord (i + step)) : 0 ∉ places (i + step) stop step := by
  simp only [mem_places]
  unfold IsWord at *
  omega

/-- The first `n` numbers of a progression are `n` numbers. -/
@[simp]
theorem size_terms (start step : Int) (n : ℕ) : (terms start step n).size = n :=
  Array.size_ofFn

/-- The number at a place is so many steps from the start. -/
@[simp]
theorem getElem_terms {start step : Int} {n k : ℕ} (h : k < (terms start step n).size) :
    (terms start step n)[k] = start + k * step :=
  Array.getElem_ofFn h

/-- The first no numbers of a progression are none. -/
@[simp]
theorem terms_zero (start step : Int) : terms start step 0 = #[] :=
  rfl

/-- The number at the first place, and then those from one step later on. -/
theorem push_append_terms (taken : Array Int) (i step : Int) (n : ℕ) :
    taken.push i ++ terms (i + step) step n = taken ++ terms i step (n + 1) := by
  have hlater : terms i step (n + 1) = #[i] ++ terms (i + step) step n := by
    apply Array.ext
    · simp [Nat.add_comm]
    · intro k _ _
      rcases k with _ | k
      · simp
      · simp [add_mul, add_assoc, add_comm step]
  rw [hlater, ← Array.append_assoc, Array.push_eq_append]

/-- The loop from a number on, with some room left: it takes all numbers before the end if there is
room for them. -/
theorem rangeFrom_eq {stop step i : Int} {n : ℕ} (room : ℕ) (taken : Array Int) (hhere : IsWord i)
    (hlast : IsWord stop) (hcount : ∀ k : ℕ, k ∈ places i stop step ↔ k < n) :
    rangeFrom stop step room (some i) taken =
      if n ≤ room then some (taken ++ terms i step n) else none := by
  -- By induction on the room; the count of what is left goes down with it.
  induction room generalizing i n taken with
  | zero =>
    simp only [rangeFrom, isBefore_iff, hcount]
    split_ifs <;> grind [terms_zero]
  | succ room ih =>
    rcases n with _ | n
    · have hpast : isBefore stop step i = false := by
        rw [Bool.eq_false_iff, ne_eq, isBefore_iff, hcount]
        omega
      simp [rangeFrom, hpast]
    · have hbefore : isBefore stop step i = true := by
        rw [isBefore_iff, hcount]
        omega
      have hleft : ∀ k : ℕ, k ∈ places (i + step) stop step ↔ k < n := fun k => by
        rw [← succ_mem_places, hcount, Nat.succ_lt_succ_iff]
      rw [rangeFrom, if_pos hbefore]
      by_cases hword : IsWord (i + step)
      · rw [successor?_of_isWord hword, ih (taken.push i) hword hleft, push_append_terms]
        simp only [Nat.add_le_add_iff_right]
      · -- Past 64 bits nothing is left to take.
        have hnone : n = 0 := by
          have := not_before_of_not_isWord hhere hlast hword
          rw [hleft] at this
          omega
        rw [successor?_of_not_isWord hword, rangeFrom, ← push_append_terms, hnone, terms_zero]
        simp

/-- The numbers of a range, if there is room for those at all its places. -/
theorem range?_eq {start stop step : Int} {n : ℕ} (hfirst : IsWord start) (hlast : IsWord stop)
    (hcount : ∀ k : ℕ, k ∈ places start stop step ↔ k < n) :
    range? start stop step = if n ≤ rangeLimit then some (terms start step n) else none := by
  rw [range?, rangeFrom_eq rangeLimit #[] hfirst hlast hcount, Array.empty_append]

/-! ### Calls -/

/-- A number that is brought into 64 bits has 64 bits. -/
theorem isWord_saturate (i : Int) : IsWord (Number.saturate i) := by
  unfold IsWord Number.saturate Number.least Number.greatest
  omega

/-- The whole part of a number, brought into 64 bits, has 64 bits. -/
theorem isWord_truncate (x : Float) : IsWord (Number.truncate x) := by
  unfold Number.truncate
  split_ifs
  · decide
  · decide
  · decide
  · exact isWord_saturate _

/-- The whole part of zero is zero. -/
theorem truncate_zero : Number.truncate 0 = 0 := by
  decide +kernel

/-- The whole part of one is one. -/
theorem truncate_one : Number.truncate 1 = 1 := by
  decide +kernel

/-- A call whose arguments stand for bounds makes the range between them, or fails if its step is
zero or it has too many numbers. -/
theorem call_range {args : List Value} {start stop step : Int} (m : Machine)
    (hgiven : bounds? args = some (start, stop, step)) :
    (core .range).call args m =
      if step = 0 then (.error .zeroStep, m)
      else match range? start stop step with
        | none => (.error (.rangeTooLong rangeLimit), m)
        | some numbers =>
          (.ok (.array ⟨m.store.arrays.size⟩), m.mapStore fun store => { store with
            arrays := store.arrays.push (numbers.map fun i => .number (Number.ofInt i)) }) := by
  unfold bounds? at hgiven
  split at hgiven <;> cases hgiven
  · show Native.range 0 _ 1 m = _
    rw [Native.range, truncate_zero, truncate_one]
    rfl
  · show Native.range _ _ 1 m = _
    rw [Native.range, truncate_one]
    rfl
  · rfl

/-- The bounds that arguments stand for have 64 bits. -/
theorem isWord_bounds {args : List Value} {start stop step : Int}
    (hgiven : bounds? args = some (start, stop, step)) :
    IsWord start ∧ IsWord stop ∧ IsWord step := by
  have hzero : IsWord 0 := by decide
  have hone : IsWord 1 := by decide
  unfold bounds? at hgiven
  split at hgiven <;> cases hgiven
  · exact ⟨hzero, isWord_truncate _, hone⟩
  · exact ⟨isWord_truncate _, isWord_truncate _, hone⟩
  · exact ⟨isWord_truncate _, isWord_truncate _, isWord_truncate _⟩

/-- A range of 64-bit bounds fails with a runtime fault exactly if its step is zero or more than a
million numbers lie before its end, and the fault names which of the two it is. Otherwise it is a
new array with the number at each place before the end, and none of them leaves the 64 bits. -/
theorem range_call_places :
    (∀ start stop step : Int, IsWord start → IsWord stop →
      ∃ n : ℕ, Counts start stop step n ∧
        range? start stop step = if n ≤ 1000000 then some (terms start step n) else none) ∧
    ∀ (args : List Value) (start stop step : Int) (m : Machine),
      bounds? args = some (start, stop, step) →
      IsWord start ∧ IsWord stop ∧ IsWord step ∧ ∃ n : ℕ, Counts start stop step n ∧
        (step = 0 → Cause.zeroStep.category = .running ∧
          (core .range).call args m = (.error .zeroStep, m)) ∧
        (step ≠ 0 → 1000000 < n → (Cause.rangeTooLong 1000000).category = .running ∧
          (core .range).call args m = (.error (.rangeTooLong 1000000), m)) ∧
        (step ≠ 0 → n ≤ 1000000 → (core .range).call args m =
          (.ok (.array ⟨m.store.arrays.size⟩), m.mapStore fun store => { store with
            arrays := store.arrays.push
              ((terms start step n).map fun i => .number (Number.ofInt i)) })) := by
  constructor
  · intro start stop step hfirst hlast
    obtain ⟨n, hcount⟩ := exists_count start stop step
    exact ⟨n, counts_of_count hfirst hlast hcount, range?_eq hfirst hlast hcount⟩
  · intro args start stop step m hgiven
    obtain ⟨hfirst, hlast, hstep⟩ := isWord_bounds hgiven
    obtain ⟨n, hcount⟩ := exists_count start stop step
    have hnumbers : range? start stop step =
        if n ≤ 1000000 then some (terms start step n) else none := range?_eq hfirst hlast hcount
    refine ⟨hfirst, hlast, hstep, n, counts_of_count hfirst hlast hcount, fun hstill => ⟨rfl, ?_⟩,
      fun hmoves hmany => ⟨rfl, ?_⟩, fun hmoves hfew => ?_⟩
    · rw [call_range m hgiven, if_pos hstill]
    · rw [call_range m hgiven, hnumbers, if_neg hmoves, if_neg (by omega)]
      rfl
    · rw [call_range m hgiven, hnumbers, if_neg hmoves, if_pos hfew]

/-- Of the range that starts 1023 below the largest whole number, has no end and moves by 1000, the
second number is the last: the third would not have 64 bits. -/
theorem range_at_greatest :
    bounds? [.number 9223372036854774784, .number (1 / 0), .number 1000] =
      some (9223372036854774784, Number.greatest, 1000) ∧
    Counts 9223372036854774784 Number.greatest 1000 2 ∧
    ∀ m : Machine,
      (core .range).call [.number 9223372036854774784, .number (1 / 0), .number 1000] m =
      (.ok (.array ⟨m.store.arrays.size⟩), m.mapStore fun store => { store with
        arrays := store.arrays.push #[.number (Number.ofInt 9223372036854774784),
          .number (Number.ofInt 9223372036854775784)] }) := by
  have hgiven : bounds? [.number 9223372036854774784, .number (1 / 0), .number 1000] =
      some (9223372036854774784, Number.greatest, 1000) := by decide +kernel
  have htwo : range? 9223372036854774784 Number.greatest 1000 =
      some #[9223372036854774784, 9223372036854775784] := by decide +kernel
  obtain ⟨n, hcounted, hnumbers⟩ :=
    range_call_places.1 9223372036854774784 Number.greatest 1000 (by decide) (by decide)
  rw [htwo] at hnumbers
  split_ifs at hnumbers with hfew
  have hitems := Option.some.inj hnumbers
  have hsize : n = 2 := by rw [← size_terms 9223372036854774784 1000 n, ← hitems]; rfl
  subst hsize
  refine ⟨hgiven, hcounted, fun m => ?_⟩
  obtain ⟨-, -, -, k, hcounted', -, -, hcalls⟩ := range_call_places.2 _ _ _ _ m hgiven
  have hsame : k = 2 := hcounted'.eq hcounted
  subst hsame
  rw [hcalls (by decide) hfew, ← hitems]
  simp

end QuantumScript.Native
