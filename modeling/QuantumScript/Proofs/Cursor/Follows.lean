import QuantumScript.Proofs.Cursor.Reader
import QuantumScript.Proofs.Parser.Points

/-!
# Readers with a cursor follow readers of lists

A reader with a cursor `Follows` a reading of a list if it does the same wherever the cursor has that
list before it: it finds the same value and leaves the cursor in front of the same tokens, or it
fails with the fault of the stuck reading; and it never slips. There is one law here for each step
and for each way of putting readings together.

Routines are ordered by which calls which without taking a token (`Routine.rank`). A reader follows
from a rank on, if it may call only routines from that rank on before it has taken a token; after
that it may call all of them.
-/

namespace QuantumScript

open Token Reading

namespace Reading

/-! ## Changed values -/

variable {α β γ : Type} {ts us : List Token}

/-- What a widened reading finds is changed before or after. -/
theorem map_widen (f : α → β) (reading : Reading α us) (h : us.length ≤ ts.length) :
    (reading.widen h : Reading α ts).map f = (reading.map f).widen h := by
  cases reading <;> rfl

/-- A reading behind line ends finds a changed value if the one without them does. -/
theorem map_pastNewlines (f : α → β)
    (next : (rest : List Token) → rest.length ≤ ts.length → Reading α rest) :
    (pastNewlines ts next).map f = pastNewlines ts fun rest h => (next rest h).map f :=
  map_widen f _ _

/-- A reading behind separators does. -/
theorem map_pastSeparators (f : α → β)
    (next : (rest : List Token) → rest.length ≤ ts.length → Reading α rest) :
    (pastSeparators ts next).map f = pastSeparators ts fun rest h => (next rest h).map f :=
  map_widen f _ _

/-- Two changes are one. -/
theorem map_map (f : α → β) (g : β → γ) (reading : Reading α ts) :
    (reading.map f).map g = reading.map fun a => g (f a) := by
  cases reading <;> rfl

/-- Two readings one after the other find a changed value if the second does. -/
theorem map_andThen (f : β → γ) (reading : Reading α ts)
    (next : α → (rest : List Token) → rest.length < ts.length → Reading β rest) :
    (reading.andThen next).map f = reading.andThen fun a rest h => (next a rest h).map f := by
  cases reading with
  | error => rfl
  | ok found =>
    simp only [andThen, andMaybe]
    cases next found.value found.rest found.shorter <;> rfl

end Reading

namespace Cursor

variable {α β σ : Type} {items ts rest : List Token} {rank n k here there : Nat} {frame : Frame}

/-! ## Where a cursor stands -/

/-- The cursor has some tokens before it, and routines from a rank on may be called. -/
structure Faces (items : List Token) (rank : Nat) (ts : List Token) (frame : Frame) (here : Nat) :
    Prop where
  /-- The tokens that are read. -/
  whole : frame.tokens.items = items
  /-- The tokens from the cursor on are those ahead. -/
  ahead : items.drop here = ts
  /-- The cursor is not behind the end mark. -/
  size : here + ts.length = items.length
  /-- No routine was called behind the cursor, and none from the rank on at it. -/
  floors : ∀ r, frame.floor r ≤ here + 1 ∧ (rank ≤ r.rank → frame.floor r ≤ here)
  /-- More rounds and nested calls are allowed than there are tokens left. -/
  spare : ts.length < frame.allowance

/-- With more tokens taken, every routine may be called. -/
theorem Faces.move (h : Faces items rank ts frame here) (hahead : items.drop there = rest)
    (hsize : there + rest.length = items.length) (hshorter : rest.length < ts.length) :
    Faces items k rest frame there := by
  have hstart := h.size
  refine ⟨h.whole, hahead, hsize, fun r => ?_, Nat.lt_trans hshorter h.spare⟩
  have hfloor := (h.floors r).1
  omega

/-- Without tokens taken back, the same routines may be called. -/
theorem Faces.stay (h : Faces items rank ts frame here) (hahead : items.drop there = rest)
    (hsize : there + rest.length = items.length) (hle : rest.length ≤ ts.length) :
    Faces items rank rest frame there := by
  have hstart := h.size
  refine ⟨h.whole, hahead, hsize, fun r => ?_, Nat.lt_of_le_of_lt hle h.spare⟩
  obtain ⟨hall, hfrom⟩ := h.floors r
  exact ⟨by omega, fun hr => Nat.le_trans (hfrom hr) (by omega)⟩

/-- Fewer routines may be called. -/
theorem Faces.mono (h : Faces items rank ts frame here) (hk : rank ≤ k) :
    Faces items k ts frame here :=
  ⟨h.whole, h.ahead, h.size,
    fun r => ⟨(h.floors r).1, fun hr => (h.floors r).2 (Nat.le_trans hk hr)⟩, h.spare⟩

/-- What a reader with a cursor did agrees with a reading. -/
def Agrees (items : List Token) (ending : Span) (out : Except Halt (α × Nat))
    (reading : Except Stuck (Found α n)) : Prop :=
  match reading with
  | .error stuck => out = .error (.fault (stuck.fault ending))
  | .ok found => ∃ there, out = .ok (found.value, there) ∧ items.drop there = found.rest ∧
      there + found.rest.length = items.length

/-- A reader with a cursor does what a reading does with the tokens before the cursor. -/
def Follows (items : List Token) (rank : Nat) (reader : Cursor α) (ts : List Token)
    (reading : Except Stuck (Found α n)) : Prop :=
  ∀ frame here, Faces items rank ts frame here →
    Agrees items frame.tokens.ending (reader frame here) reading

variable {reader : Cursor α} {next : α → Cursor β}

/-- A reader that may call fewer routines may call more. -/
theorem Follows.mono {reading : Except Stuck (Found α n)} (h : Follows items rank reader ts reading)
    (hk : k ≤ rank) : Follows items k reader ts reading :=
  fun frame here hfaces => h frame here (hfaces.mono hk)

/-! ## One step after the other -/

/-- A step that is done without taking tokens. -/
theorem follows_of_ok {a : α} {reading : Except Stuck (Found β n)}
    (hstep : ∀ frame here, Faces items rank ts frame here → reader frame here = .ok (a, here))
    (h : Follows items rank (next a) ts reading) :
    Follows items rank (reader >>= next) ts reading := by
  intro frame here hfaces
  rw [bind_of_ok (hstep frame here hfaces)]
  exact h frame here hfaces

/-- A reading and what it goes on with, from a part of its value. -/
theorem follows_bind_of {γ : Type} {us : List Token} {first : Reading γ us} {f : γ → α}
    {whole : Except Stuck (Found β n)} (hle : us.length ≤ ts.length)
    (h : Follows items rank reader ts (first.map f))
    (hstuck : ∀ stuck, first = .error stuck → whole = .error stuck)
    (hfound : ∀ found, first = .ok found →
      Follows items 0 (next (f found.value)) found.rest whole) :
    Follows items rank (reader >>= next) ts whole := by
  intro frame here hfaces
  have hfirst := h frame here hfaces
  cases hreading : first with
  | error stuck =>
    rw [hreading] at hfirst
    rw [hstuck stuck hreading]
    exact bind_of_error hfirst
  | ok found =>
    rw [hreading] at hfirst
    obtain ⟨there, hdone, hahead, hsize⟩ := hfirst
    rw [bind_of_ok hdone]
    have hshorter := Nat.lt_of_lt_of_le found.shorter hle
    exact hfound found hreading frame there (hfaces.move hahead hsize hshorter)

/-- A reading that goes on with one that may take nothing, from a part of its value. -/
theorem follows_andMaybe_of {γ : Type} {reading : Reading γ ts} {f : γ → α}
    {next' : γ → (rest : List Token) → rest.length < ts.length → LooseReading β rest}
    (h : Follows items rank reader ts (reading.map f))
    (hnext : ∀ a rest hshorter, Follows items 0 (next (f a)) rest (next' a rest hshorter)) :
    Follows items rank (reader >>= next) ts (reading.andMaybe next') := by
  refine follows_bind_of (Nat.le_refl _) h (fun stuck hreading => ?_) fun found hreading => ?_
  · rw [hreading]
    rfl
  · have hsecond := hnext found.value found.rest found.shorter
    rw [hreading]
    unfold andMaybe
    dsimp only
    cases hmore : next' found.value found.rest found.shorter <;> rwa [hmore] at hsecond

/-- A reading with its value as it is. -/
theorem follows_map_id {reading : Reading α ts} :
    Follows items rank reader rest (reading.map id) ↔ Follows items rank reader rest reading := by
  cases reading <;> rfl

/-- A reading that goes on with one that may take nothing. -/
theorem follows_andMaybe {reading : Reading α ts}
    {next' : α → (rest : List Token) → rest.length < ts.length → LooseReading β rest}
    (h : Follows items rank reader ts reading)
    (hnext : ∀ a rest hshorter, Follows items 0 (next a) rest (next' a rest hshorter)) :
    Follows items rank (reader >>= next) ts (reading.andMaybe next') :=
  follows_andMaybe_of (follows_map_id.2 h) hnext

section Bounds

variable {reading : Reading α ts}

/-- The bound of a reading does not matter to what it does. -/
theorem follows_loosen : Follows items rank reader rest reading.loosen ↔
    Follows items rank reader rest reading := by
  cases reading <;> rfl

/-- Where the tokens of a reading come from does not matter to what it does. -/
theorem follows_widen {us : List Token} {h : ts.length ≤ us.length} :
    Follows items rank reader rest (reading.widen h : Reading α us) ↔
      Follows items rank reader rest reading := by
  cases reading <;> rfl

/-- A token before those of a reading does not matter to what it does. -/
theorem follows_behind {t : Token} : Follows items rank reader rest (Reading.behind t reading) ↔
    Follows items rank reader rest reading :=
  follows_widen

/-- A token before a reading that may take nothing does not matter to what it does. -/
theorem follows_loose_behind {t : Token} :
    Follows items rank reader rest (LooseReading.behind t reading) ↔
      Follows items rank reader rest reading := by
  rw [LooseReading.behind, follows_loosen, follows_behind]

end Bounds

/-- A reading that goes on with another one, from a part of its value. -/
theorem follows_andThen_of {γ : Type} {reading : Reading γ ts} {f : γ → α}
    {next' : γ → (rest : List Token) → rest.length < ts.length → Reading β rest}
    (h : Follows items rank reader ts (reading.map f))
    (hnext : ∀ a rest hshorter, Follows items 0 (next (f a)) rest (next' a rest hshorter)) :
    Follows items rank (reader >>= next) ts (reading.andThen next') :=
  follows_andMaybe_of h fun a rest hshorter => follows_loosen.2 (hnext a rest hshorter)

/-- A reading that goes on with another one. -/
theorem follows_andThen {reading : Reading α ts}
    {next' : α → (rest : List Token) → rest.length < ts.length → Reading β rest}
    (h : Follows items rank reader ts reading)
    (hnext : ∀ a rest hshorter, Follows items 0 (next a) rest (next' a rest hshorter)) :
    Follows items rank (reader >>= next) ts (reading.andThen next') :=
  follows_andMaybe h fun a rest hshorter => follows_loosen.2 (hnext a rest hshorter)

/-- A reading with its value changed, from a part of the value. -/
theorem follows_map_of {γ : Type} {reading : Reading γ ts} {f : γ → α} {g : γ → β}
    (h : Follows items rank reader rest (reading.map f)) (hg : ∀ c, next (f c) = pure (g c)) :
    Follows items rank (reader >>= next) rest (reading.map g) := by
  intro frame here hfaces
  have hfirst := h frame here hfaces
  cases reading with
  | error stuck => exact bind_of_error hfirst
  | ok found =>
    obtain ⟨there, hdone, hahead, hsize⟩ := hfirst
    rw [bind_of_ok hdone, hg]
    exact ⟨there, rfl, hahead, hsize⟩

/-- A reading with its value changed. -/
theorem follows_map {reading : Reading α ts} {f : α → β} (h : Follows items rank reader rest reading)
    (hf : ∀ a, next a = pure (f a)) : Follows items rank (reader >>= next) rest (reading.map f) :=
  follows_map_of (follows_map_id.2 h) hf

/-- A reading that may take nothing, with its value changed. -/
theorem follows_loose_map {reading : LooseReading α ts} {f : α → β}
    (h : Follows items rank reader rest reading) (hf : ∀ a, next a = pure (f a)) :
    Follows items rank (reader >>= next) rest (LooseReading.map f reading) := by
  intro frame here hfaces
  have hfirst := h frame here hfaces
  cases reading with
  | error stuck => exact bind_of_error hfirst
  | ok found =>
    obtain ⟨there, hdone, hahead, hsize⟩ := hfirst
    rw [bind_of_ok hdone, hf]
    exact ⟨there, rfl, hahead, hsize⟩

/-- A value is found where the cursor stands. -/
theorem follows_pure (a : α) (h : ts.length < n) :
    Follows items rank (pure a) ts (.ok ⟨a, ts, h⟩ : Except Stuck (Found α n)) :=
  fun _ here hfaces => ⟨here, rfl, hfaces.ahead, hfaces.size⟩

/-- A value is found without taking tokens. -/
theorem follows_nothing (a : α) (ts : List Token) :
    Follows items rank (pure a) ts (LooseReading.nothing a ts) :=
  follows_pure a _

/-- A value is found behind a token. -/
theorem follows_token (a : α) (t : Token) (ts : List Token) :
    Follows items rank (pure a) ts (Reading.token a t ts) :=
  follows_pure a _

/-- Behind a token a reading goes on as the next one. -/
theorem follows_token_andMaybe {a : α} {t : Token} {next' : α → (rest : List Token) →
      rest.length < (t :: ts).length → LooseReading β rest} {reader : Cursor β} :
    Follows items rank reader rest ((Reading.token a t ts).andMaybe next') ↔
      Follows items rank reader rest (next' a ts (Nat.lt_succ_self _)) := by
  unfold Reading.token andMaybe
  dsimp only
  cases next' a ts (Nat.lt_succ_self _) <;> rfl

/-- Behind a token a reading goes on as the next one. -/
theorem follows_token_andThen {a : α} {t : Token} {next' : α → (rest : List Token) →
      rest.length < (t :: ts).length → Reading β rest} {reader : Cursor β} :
    Follows items rank reader rest ((Reading.token a t ts).andThen next') ↔
      Follows items rank reader rest (next' a ts (Nat.lt_succ_self _)) :=
  follows_token_andMaybe.trans follows_loosen

/-! ## Steps -/

/-- The cells up to the end mark are the tokens. -/
theorem cells_getElem? {tokens : Tokens} (h : here ≤ tokens.items.length) :
    tokens.cells[here]? = some tokens.items[here]? := by
  unfold Tokens.cells
  rcases Nat.lt_or_eq_of_le h with hlt | rfl
  · rw [List.getElem?_append_left (by simpa using hlt)]
    simp [hlt]
  · simp

/-- At the place of the cursor stands the first of the tokens before it. -/
theorem Faces.look (h : Faces items rank ts frame here) (there : Nat) :
    look here frame there = .ok (ts.head?, there) := by
  have hcell : frame.tokens.cells[here]? = some ts.head? := by
    rw [cells_getElem? (by rw [h.whole]; have := h.size; omega), h.whole, ← h.ahead,
      List.head?_drop]
  rw [Cursor.look, hcell]

/-- The token at the cursor is the first of those before it. -/
theorem Faces.peek (h : Faces items rank ts frame here) : peek frame here = .ok (ts.head?, here) :=
  h.look here

/-- After the first token those behind it are before the cursor. -/
theorem Faces.tail {t : Token} (h : Faces items rank (t :: ts) frame here) :
    Faces items k ts frame (here + 1) := by
  have hahead : items.drop (here + 1) = ts := by
    rw [← List.tail_drop, h.ahead, List.tail_cons]
  have hsize := h.size
  rw [List.length_cons] at hsize
  exact h.move hahead (by omega) (by simp)

/-- Behind the first token the region of this token is that of the token before. -/
theorem Faces.previous_tail {t : Token} (h : Faces items rank (t :: ts) frame here) :
    previous frame (here + 1) = .ok (t.span, here + 1) := by
  show (Cursor.look here >>= fun cell => return (← read).tokens.regionOf cell) frame (here + 1) = _
  rw [bind_of_ok (h.look (here + 1))]
  rfl

/-- The cursor is moved over the first token. -/
theorem Faces.advance {t : Token} (h : Faces items rank (t :: ts) frame here) :
    advance frame here = .ok (t.span, here + 1) := by
  have hend : isAtEnd frame here = .ok (false, here) := bind_of_ok h.peek
  have hmove : moveTo (here + 1) frame here = .ok ((), here + 1) := by
    rw [moveTo, if_pos]
    have hsize := h.size
    rw [List.length_cons] at hsize
    simp only [Tokens.cells, h.whole, List.length_append, List.length_map, List.length_singleton]
    omega
  unfold Cursor.advance
  rw [bind_of_ok hend]
  show (moveTo (here + 1) >>= fun _ => previous) frame here = _
  rw [bind_of_ok hmove]
  exact h.previous_tail

section Steps

variable {reading : Except Stuck (Found β n)} {t : Token} {test : Token → Bool}

/-- What a reader does after a look at the token at the cursor. -/
theorem follows_peek {next : Option Token → Cursor β} (h : Follows items rank (next ts.head?) ts reading) :
    Follows items rank (peek >>= next) ts reading :=
  follows_of_ok (fun _ _ hfaces => hfaces.peek) h

/-- What it does after a test whether the tokens are over. -/
theorem follows_isAtEnd {next : Bool → Cursor β}
    (h : Follows items rank (next ts.head?.isNone) ts reading) :
    Follows items rank (isAtEnd >>= next) ts reading :=
  follows_of_ok (fun _ _ hfaces => bind_of_ok hfaces.peek) h

/-- What it does after a test of the token at the cursor. -/
theorem follows_check {next : Bool → Cursor β}
    (h : Follows items rank (next (ts.head?.any test)) ts reading) :
    Follows items rank (check test >>= next) ts reading :=
  follows_of_ok (fun _ _ hfaces => bind_of_ok hfaces.peek) h

/-- What it does behind a token. -/
theorem follows_advance {next : Span → Cursor β} (h : Follows items 0 (next t.span) ts reading) :
    Follows items rank (advance >>= next) (t :: ts) reading := by
  intro frame here hfaces
  rw [bind_of_ok hfaces.advance]
  exact h frame (here + 1) hfaces.tail

/-- A token that passes a test is accepted. -/
theorem Faces.accept (h : Faces items rank (t :: ts) frame here) (ht : test t = true) :
    accept test frame here = .ok (true, here + 1) := by
  have hcheck : check test frame here = .ok (true, here) := by
    rw [← ht]
    exact bind_of_ok h.peek
  unfold Cursor.accept
  rw [bind_of_ok hcheck]
  exact bind_of_ok h.advance

/-- Another one is not. -/
theorem Faces.reject (h : Faces items rank ts frame here) (ht : ts.head?.any test = false) :
    Cursor.accept test frame here = .ok (false, here) := by
  have hcheck : check test frame here = .ok (false, here) := by
    rw [← ht]
    exact bind_of_ok h.peek
  unfold Cursor.accept
  rw [bind_of_ok hcheck]
  rfl

/-- What a reader does behind a token that it accepts. -/
theorem follows_accept {yes no : Cursor β} (ht : test t = true)
    (h : Follows items 0 yes ts reading) :
    Follows items rank (accept test >>= fun passed => if passed = true then yes else no) (t :: ts)
      reading := by
  intro frame here hfaces
  rw [bind_of_ok (hfaces.accept ht)]
  exact h frame (here + 1) hfaces.tail

/-- What it does at a token that it does not accept. -/
theorem follows_reject {yes no : Cursor β} (ht : ts.head?.any test = false)
    (h : Follows items rank no ts reading) :
    Follows items rank (accept test >>= fun passed => if passed = true then yes else no) ts
      reading :=
  follows_of_ok (fun _ _ hfaces => hfaces.reject ht) h

/-- What it does behind a token that it accepts with its region. -/
theorem follows_acceptRegion {next : Option Span → Cursor β} (ht : test t = true)
    (h : Follows items 0 (next (some t.span)) ts reading) :
    Follows items rank (acceptRegion test >>= next) (t :: ts) reading := by
  intro frame here hfaces
  have hregion : acceptRegion test frame here = .ok (some t.span, here + 1) := by
    unfold acceptRegion
    rw [bind_of_ok (hfaces.accept ht)]
    exact bind_of_ok hfaces.previous_tail
  rw [bind_of_ok hregion]
  exact h frame (here + 1) hfaces.tail

/-- What it does at a token without the region. -/
theorem follows_rejectRegion {next : Option Span → Cursor β} (ht : ts.head?.any test = false)
    (h : Follows items rank (next none) ts reading) :
    Follows items rank (acceptRegion test >>= next) ts reading := by
  refine follows_of_ok (fun frame here hfaces => ?_) h
  unfold acceptRegion
  rw [bind_of_ok (hfaces.reject ht)]
  rfl

/-- A reader that asks for its place follows a reading, if what it does from there on does. -/
theorem follows_place {next : Nat → Cursor β}
    (h : ∀ saved, items.drop saved = ts → saved + ts.length = items.length →
      Follows items rank (next saved) ts reading) :
    Follows items rank (place >>= next) ts reading := by
  intro frame here hfaces
  exact h here hfaces.ahead hfaces.size frame here hfaces

/-- A reader that goes back to a place where it stood takes nothing from there on. -/
theorem follows_moveTo {us : List Token} {saved : Nat} (a : α) (hahead : items.drop saved = us)
    (hsize : saved + us.length = items.length) :
    Follows items rank (moveTo saved >>= fun _ => pure a) ts (LooseReading.nothing a us) := by
  intro frame here hfaces
  have hmove : moveTo saved frame here = .ok ((), saved) := by
    rw [moveTo, if_pos]
    simp only [Tokens.cells, hfaces.whole, List.length_append, List.length_map,
      List.length_singleton]
    omega
  rw [bind_of_ok hmove]
  exact ⟨saved, rfl, hahead, hsize⟩

/-- A reader goes on from what a reading finds. -/
theorem follows_found {found : Found α (ts.length + 1)}
    (h : Follows items rank reader ts (.ok found))
    (hnext : Follows items rank (next found.value) found.rest reading) :
    Follows items rank (reader >>= next) ts reading := by
  intro frame here hfaces
  obtain ⟨there, hdone, hahead, hsize⟩ := h frame here hfaces
  rw [bind_of_ok hdone]
  exact hnext frame there (hfaces.stay hahead hsize (Nat.le_of_lt_succ found.shorter))

end Steps

/-- The fault of a stuck reading tells the first token only. -/
theorem fault_head (reason : Stuck.Reason) (ts : List Token) (ending : Span) :
    (Stuck.mk reason ts.head?.toList).fault ending = (Stuck.mk reason ts).fault ending := by
  cases ts <;> rfl

/-- A reader fails as a stuck reading does. -/
theorem follows_fail {fault : Fault} {stuck : Stuck} (h : ∀ ending, stuck.fault ending = fault) :
    Follows items rank (fail fault : Cursor α) ts (.error stuck : Except Stuck (Found α n)) :=
  fun frame _ _ => by
    show (.error (.fault fault) : Except Halt (α × Nat)) = _
    rw [h]

/-- A reader is stuck at the token at the cursor. -/
theorem follows_stuck (reason : Stuck.Reason) :
    Follows items rank (stuck reason : Cursor α) ts
      (.error ⟨reason, ts⟩ : Except Stuck (Found α n)) := by
  intro frame here hfaces
  unfold stuck
  rw [bind_of_ok hfaces.peek]
  show (.error (.fault _) : Except Halt (α × Nat)) = _
  rw [fault_head]

/-! ## Given tokens -/

/-- The first token passes a test, or there is none that does. -/
theorem head_cases (test : Token → Bool) (ts : List Token) :
    (∃ t after, ts = t :: after ∧ test t = true) ∨ ts.head?.any test = false := by
  cases ts with
  | nil => exact .inr rfl
  | cons t after =>
    cases ht : test t with
    | true => exact .inl ⟨t, after, rfl, ht⟩
    | false => exact .inr ht

/-- The test of the first token that is no line end. -/
theorem nextIs_eq (test : Token → Bool) (ts : List Token) :
    nextIs test ts = (skipNewlines ts).head?.any test := by
  unfold nextIs
  cases skipNewlines ts <;> rfl

section Tokens

variable {test : Token → Bool} {want : Expectation}

/-- A token that satisfies a test is read. -/
theorem follows_expect : Follows items rank (expect test want) ts (take test want ts) := by
  unfold expect
  refine follows_peek ?_
  cases ts with
  | nil => exact follows_stuck _
  | cons t us =>
    unfold take
    dsimp only [List.head?_cons]
    split
    · exact follows_advance (follows_token t t us)
    · exact follows_stuck _

/-- A name is read. -/
theorem follows_expectName :
    Follows items rank (expectName want) ts ((takeName want ts).map Prod.fst) := by
  unfold expectName
  refine follows_peek ?_
  cases ts with
  | nil => exact follows_stuck _
  | cons t us =>
    unfold takeName
    dsimp only [List.head?_cons]
    cases t.kind with
    | name value => exact follows_advance (follows_token _ t us)
    | _ => exact follows_stuck _

end Tokens

section Regions

variable {γ : Type} {reading : Reading γ ts} {f : γ → α} {region : γ → Span}

/-- A reader that takes one token gives the region of this token. -/
theorem follows_withRegion (h : Follows items rank reader ts (reading.map f))
    (htoken : ∀ c rest, Yields reading c rest → ∃ t, ts = t :: rest ∧ t.span = region c) :
    Follows items rank (withRegion reader) ts (reading.map fun c => (f c, region c)) := by
  intro frame here hfaces
  have hfirst := h frame here hfaces
  unfold withRegion
  cases reading with
  | error stuck => exact bind_of_error hfirst
  | ok found =>
    obtain ⟨value, rest, hshorter⟩ := found
    obtain ⟨there, hdone, hahead, hsize⟩ := hfirst
    obtain ⟨t, rfl, ht⟩ := htoken value rest ⟨hshorter, rfl⟩
    dsimp only at hdone hahead hsize
    obtain rfl : there = here + 1 := by
      have hstart := hfaces.size
      rw [List.length_cons] at hstart
      omega
    rw [bind_of_ok hdone, bind_of_ok hfaces.previous_tail, ht]
    exact ⟨here + 1, rfl, hahead, hsize⟩

/-- A token that satisfies a test is read, and its region is kept. -/
theorem follows_withRegion_expect {test : Token → Bool} {want : Expectation} {a : α} :
    Follows items rank (withRegion (expect test want >>= fun _ => pure a)) ts
      ((take test want ts).map fun t => (a, t.span)) :=
  follows_withRegion (follows_map follows_expect fun _ => rfl) fun t _ h =>
    ⟨t, (yields_take.1 h).1, rfl⟩

/-- A name is read with its region. -/
theorem follows_withRegion_expectName {want : Expectation} :
    Follows items rank (withRegion (expectName want)) ts (takeName want ts) :=
  follows_map_id.1 <| follows_withRegion follows_expectName fun _ _ h => by
    obtain ⟨t, hts, -, hspan⟩ := yields_takeName.1 h
    exact ⟨t, hts, hspan⟩

/-- The region of a reader that goes on is that of what it goes on with. -/
theorem withRegion_bind :
    withRegion (reader >>= next) = reader >>= fun a => withRegion (next a) :=
  bind_assoc ..

/-- A look at the token before the cursor moves nothing and fails with no fault. -/
theorem previous_cases (frame : Frame) (here : Nat) :
    (∃ region, previous frame here = .ok (region, here)) ∨
      previous frame here = .error (.slip .outside) := by
  have hdef : previous frame here =
      (look (here - 1) >>= fun cell => return (← read).tokens.regionOf cell) frame here := rfl
  rw [hdef]
  cases hcell : frame.tokens.cells[here - 1]? with
  | none => exact .inr (bind_of_error (by rw [look, hcell]))
  | some cell => exact .inl ⟨_, bind_of_ok (by rw [look, hcell])⟩

/-- A reader does without the region what it does with it. -/
theorem follows_of_withRegion {reading : Reading (α × Span) ts}
    (h : Follows items rank (withRegion reader) ts reading) :
    Follows items rank reader ts (reading.map Prod.fst) := by
  intro frame here hfaces
  have hboth := h frame here hfaces
  unfold withRegion at hboth
  cases hdone : reader frame here with
  | error halt =>
    rw [bind_of_error hdone] at hboth
    cases reading with
    | error stuck =>
      cases hboth
      rfl
    | ok found =>
      obtain ⟨there, hok, -⟩ := hboth
      cases hok
  | ok out =>
    obtain ⟨a, there⟩ := out
    rw [bind_of_ok hdone] at hboth
    rcases previous_cases frame there with ⟨region, hregion⟩ | hregion
    · rw [bind_of_ok hregion] at hboth
      cases reading with
      | error stuck => cases hboth
      | ok found =>
        obtain ⟨⟨value, last⟩, rest, hshorter⟩ := found
        obtain ⟨there, hok, hahead, hsize⟩ := hboth
        cases hok
        exact ⟨there, rfl, hahead, hsize⟩
    · rw [bind_of_error hregion] at hboth
      cases reading with
      | error stuck => cases hboth
      | ok found =>
        obtain ⟨there, hok, -⟩ := hboth
        cases hok

end Regions

end Cursor

end QuantumScript
