import QuantumScript.Native.Argument

/-!
# Runs on a machine

A run starts on a machine and leaves one, whatever happens: it may end with a value, with a fault or
in a crash, or not end within its fuel. The four are kept apart. After a crash the program is gone
with all its state, and nobody looks at the machine that is left.
-/

namespace QuantumScript

/-- How a run ended. -/
inductive Outcome (α : Type)
  /-- With a value. -/
  | done (value : α)
  /-- With a fault. -/
  | failed (fault : Fault)
  /-- In a crash. -/
  | crashed
  /-- Not within its fuel. -/
  | outOfFuel

/-- A run: from a machine to an outcome and the machine it leaves. -/
def Run (α : Type) := Machine → Outcome α × Machine

namespace Run

/-- The run that yields a value at once. -/
@[always_inline, inline]
def done {α : Type} (value : α) : Run α :=
  fun m => (.done value, m)

/-- The run that fails at once. -/
@[always_inline, inline]
def failed {α : Type} (cause : Cause) (span : Span) : Run α :=
  fun m => (.failed ⟨cause, some span⟩, m)

/-- The run that has no fuel. -/
@[always_inline, inline]
def outOfFuel {α : Type} : Run α :=
  fun m => (.outOfFuel, m)

/-- One run after another; a run that yields no value is the last. -/
@[always_inline, inline]
def andThen {α β : Type} (first : Run α) (next : α → Run β) : Run β :=
  fun m =>
    match first m with
    | (.done value, m) => next value m
    | (.failed fault, m) => (.failed fault, m)
    | (.crashed, m) => (.crashed, m)
    | (.outOfFuel, m) => (.outOfFuel, m)

@[always_inline]
instance : Monad Run where
  pure := done
  bind := andThen

/-- The run that asks the store, and fails at a region if it has no answer. -/
@[always_inline, inline]
def ask {α : Type} (span : Span) (question : Store → Except Cause α) : Run α :=
  fun m =>
    match question m.store with
    | .ok value => (.done value, m)
    | .error cause => (.failed ⟨cause, some span⟩, m)

/-- The run of a call of the library, which fails at a region. -/
@[always_inline, inline]
def within (span : Span) (call : Machine → Native.Result) : Run Value :=
  fun m =>
    match call m with
    | (.ok value, m) => (.done value, m)
    | (.error cause, m) => (.failed ⟨cause, some span⟩, m)
    | (.crash, m) => (.crashed, m)

/-- The run that changes the store. -/
@[always_inline, inline]
def change (f : Store → Store) : Run Unit :=
  fun m => (.done (), m.mapStore f)

/-- The run that changes the store if it can, and else fails at no region. -/
@[always_inline, inline]
def attempt (f : Store → Except Cause Store) : Run Unit :=
  fun m =>
    match f m.store with
    | .ok store => (.done (), { m with store })
    | .error cause => (.failed ⟨cause, none⟩, m)

/-- The run that adds something to the store and yields its name. -/
@[always_inline, inline]
def make {α : Type} (f : Store → α × Store) : Run α :=
  fun m =>
    let (value, store) := f m.store
    (.done value, { m with store })

/-- A run that counts as one more function body. -/
@[always_inline, inline]
def deeper {α : Type} (run : Run α) : Run α :=
  fun m =>
    let (outcome, m) := run { m with depth := m.depth + 1 }
    (outcome, { m with depth := m.depth - 1 })

end Run

end QuantumScript
