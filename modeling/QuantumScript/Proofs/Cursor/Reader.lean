import QuantumScript.Token.Reading

/-!
# Readers with a cursor

A reader with a cursor looks at tokens by their places in a list that ends with a mark. It moves the
cursor over one token at a time, or back to a place where it stood; it goes round in loops and calls
routines inside themselves. Nothing in it says that it ends or that it stays inside the list.

What must not happen can happen here, and stops the reader with a `Slip`: a look outside the list, a
cursor behind the end mark, a round of a loop that takes no token, a call of a routine inside itself
without a token between the two, and more rounds or nested calls than are allowed. The checks change
nothing else, so a reader that does not slip does what it does without them.
-/

namespace QuantumScript

/-- The tokens of a source text and the mark at its end. -/
def Tokens.cells (tokens : Tokens) : List (Option Token) :=
  tokens.items.map some ++ [none]

/-- The region of a token or of the end mark. -/
def Tokens.regionOf (tokens : Tokens) : Option Token → Span
  | some t => t.span
  | none => tokens.ending

/-- What a reader with a cursor must not do. -/
inductive Slip
  /-- It looks at a place outside the list. -/
  | outside
  /-- It moves the cursor behind the end mark. -/
  | beyond
  /-- It goes round in a loop without taking a token. -/
  | idleRound
  /-- It calls a routine inside itself without taking a token in between. -/
  | idleCall
  /-- It goes round more often, or calls more deeply, than it may. -/
  | endless
deriving DecidableEq

/-- The routines whose calls inside themselves are watched. -/
inductive Routine
  | statement
  | expression
  | power
  | unary
deriving DecidableEq

/-- The place of a routine in the order in which they call each other at one place. -/
def Routine.rank : Routine → Nat
  | statement => 0
  | expression => 1
  | power => 2
  | unary => 3

namespace Cursor

/-- Why a reader with a cursor stops. -/
inductive Halt
  /-- The tokens are wrong. -/
  | fault (fault : Fault)
  /-- The reader is. -/
  | slip (slip : Slip)

/-- What a reader with a cursor goes by. -/
structure Frame where
  /-- The tokens. -/
  tokens : Tokens
  /-- How often a loop may go round and how deeply a routine may call itself. -/
  allowance : Nat
  /-- Where the cursor must stand at least when a routine is called: behind the place where it stood
  at the innermost call of the routine that is not over. -/
  floor : Routine → Nat

end Cursor

/-- A reader with a cursor: from the place of the cursor to a value and the place where it is
left. -/
abbrev Cursor (α : Type) := ReaderT Cursor.Frame (StateT Nat (Except Cursor.Halt)) α

namespace Cursor

variable {α σ : Type}

/-! ## Single steps -/

/-- Slips. -/
def slip (slip : Slip) : Cursor α := fun _ _ => .error (.slip slip)

/-- Fails with a fault. -/
def fail (fault : Fault) : Cursor α := fun _ _ => .error (.fault fault)

/-- The place of the cursor. -/
def place : Cursor Nat := fun _ here => .ok (here, here)

/-- Looks at a place in the list. -/
def look (place : Nat) : Cursor (Option Token) := fun frame here =>
  match frame.tokens.cells[place]? with
  | some cell => .ok (cell, here)
  | none => .error (.slip .outside)

/-- Moves the cursor. -/
def moveTo (place : Nat) : Cursor Unit := fun frame _ =>
  if place < frame.tokens.cells.length then .ok ((), place) else .error (.slip .beyond)

/-- The token at the cursor. -/
def peek : Cursor (Option Token) := do
  look (← place)

/-- The region of the token before the cursor. -/
def previous : Cursor Span := do
  let cell ← look ((← place) - 1)
  return (← read).tokens.regionOf cell

/-- Whether the cursor stands at the end mark. -/
def isAtEnd : Cursor Bool := do
  return (← peek).isNone

/-- Moves the cursor over a token, but not over the end mark, and gives the region of the token
before it. -/
def advance : Cursor Span := do
  if ← isAtEnd then
    previous
  else
    moveTo ((← place) + 1)
    previous

/-- Fails at the token at the cursor. -/
def stuck (reason : Stuck.Reason) : Cursor α := do
  let cell ← peek
  fail ((Stuck.mk reason cell.toList).fault (← read).tokens.ending)

/-- Whether the token at the cursor satisfies a test. -/
def check (test : Token → Bool) : Cursor Bool := do
  return (← peek).any test

/-- Moves over a token that satisfies a test, if it is one. -/
def accept (test : Token → Bool) : Cursor Bool := do
  if ← check test then
    let _ ← advance
    return true
  else
    return false

/-- Moves over a token that satisfies a test, if it is one, and gives its region. -/
def acceptRegion (test : Token → Bool) : Cursor (Option Span) := do
  if ← accept test then
    return some (← previous)
  else
    return none

/-- Moves over a token that satisfies a test, or fails. -/
def expect (test : Token → Bool) (want : Expectation) : Cursor Token := do
  match ← peek with
  | none => stuck (.expected want)
  | some t =>
    if test t then
      let _ ← advance
      return t
    else
      stuck (.expected want)

/-- Moves over a given symbol, or fails. -/
def expectSymbol (sign : Symbol) (want : Expectation) : Cursor Token :=
  expect (·.isSymbol sign) want

/-- Moves over a name, or fails. -/
def expectName (want : Expectation) : Cursor String := do
  match ← peek with
  | none => stuck (.expected want)
  | some t =>
    match t.kind with
    | .name value =>
      let _ ← advance
      return value
    | _ => stuck (.expected want)

/-- What a reader finds, with the region of the last token that it takes. -/
def withRegion (reader : Cursor α) : Cursor (α × Span) := do
  let found ← reader
  return (found, ← previous)

/-! ## Loops -/

/-- How a round of a loop ends. -/
inductive Round (σ : Type)
  /-- There is none: the loop is over before it. -/
  | absent (state : σ)
  /-- It is the last one. -/
  | last (state : σ)
  /-- Another one may follow. -/
  | more (state : σ)

/-- Slips if the cursor has not moved on from a place. -/
def movedFrom (start : Nat) : Cursor Unit := do
  if (← place) ≤ start then
    slip .idleRound

/-- Goes round in a loop, with so many rounds. -/
def rounds (round : σ → Cursor (Round σ)) : Nat → σ → Cursor σ
  | 0, _ => slip .endless
  | limit + 1, state => do
    let start ← place
    match ← round state with
    | .absent state => return state
    | .last state =>
      movedFrom start
      return state
    | .more state =>
      movedFrom start
      rounds round limit state

/-- Goes round in a loop. -/
def loop (round : σ → Cursor (Round σ)) (state : σ) : Cursor σ := do
  rounds round (← read).allowance state

/-- Moves over tokens as long as they satisfy a test. -/
def skip (test : Token → Bool) : Cursor Unit :=
  loop (fun _ => do
    if ← accept test then
      return .more ()
    else
      return .absent ()) ()

/-! ## Routines -/

/-- Calls a routine, and slips if the cursor has not moved on since the routine was called
around this call. -/
def call (routine : Routine) (body : Cursor α) : Cursor α := fun frame here =>
  if here < frame.floor routine then .error (.slip .idleCall)
  else
    body { frame with
      floor := fun other => if other = routine then here + 1 else frame.floor other } here

/-- A routine that calls itself, so many calls deep. -/
def nested (body : Cursor α → Cursor α) : Nat → Cursor α
  | 0 => slip .endless
  | limit + 1 => body (nested body limit)

/-- A routine that calls itself. -/
def recursive (body : Cursor α → Cursor α) : Cursor α := do
  nested body (← read).allowance

/-- A routine that calls itself and is watched. -/
def watched (routine : Routine) (body : Cursor α → Cursor α) : Cursor α :=
  recursive fun self => call routine (body self)

/-! ## Whole readings -/

/-- A reading from the first token on, where no routine is called yet. -/
def start (reader : Cursor α) (tokens : Tokens) (allowance : Nat) : Except Halt (α × Nat) :=
  reader ⟨tokens, allowance, fun _ => 0⟩ 0

/-! ## One step after the other -/

section Laws

variable {β : Type} {reader : Cursor α} {next : α → Cursor β} {frame : Frame} {here there : Nat}

/-- After a step that is done the reader goes on. -/
theorem bind_of_ok {a : α} (h : reader frame here = .ok (a, there)) :
    (reader >>= next) frame here = next a frame there := by
  show (do let found ← reader frame here; next found.1 frame found.2) = _
  rw [h]
  rfl

/-- After a step that is stopped it does not. -/
theorem bind_of_error {halt : Halt} (h : reader frame here = .error halt) :
    (reader >>= next) frame here = .error halt := by
  show (do let found ← reader frame here; next found.1 frame found.2) = _
  rw [h]
  rfl

/-- What comes after one of two readers comes after each. -/
theorem ite_bind {p : Prop} [Decidable p] {yes no : Cursor α} :
    (if p then yes else no) >>= next = if p then yes >>= next else no >>= next := by
  split <;> rfl

/-- A round that takes no token slips, if another one may follow. -/
theorem rounds_idle {round : σ → Cursor (Round σ)} {state later : σ}
    (h : round state frame here = .ok (.more later, there)) (hidle : there ≤ here) (limit : Nat) :
    rounds round (limit + 1) state frame here = .error (.slip .idleRound) := by
  have hmoved : movedFrom here frame there = .error (.slip .idleRound) := by
    show (if there ≤ here then slip .idleRound else pure ()) frame there = _
    rw [if_pos hidle]
    rfl
  have hplace : place frame here = .ok (here, here) := rfl
  unfold rounds
  rw [bind_of_ok hplace, bind_of_ok h]
  exact bind_of_error hmoved

/-- A routine that is called at once inside itself slips. -/
theorem call_call (routine : Routine) :
    call routine (call routine reader) frame here = .error (.slip .idleCall) := by
  unfold call
  split
  · rfl
  · rw [if_pos]
    simp

end Laws

end Cursor

end QuantumScript
