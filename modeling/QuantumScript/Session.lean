import QuantumScript.Eval
import QuantumScript.Program.Parser.Stmt

/-!
# Sessions

A session runs one source text after another on the same machine, so that what one of them binds
the next can use. A text that fails does not end the session.
-/

namespace QuantumScript

/-- A machine that runs source texts, how deep calls may nest, and the fuel for each text. -/
structure Session where
  /-- What the texts run so far have left. -/
  machine : Machine
  /-- The most function bodies that are run at a time. -/
  limit : Nat
  /-- The fuel that each source text is run with. -/
  fuel : Nat

namespace Session

/-- How deep calls may nest if nothing else is said. -/
def defaultLimit : Nat := 256

/-- Fuel for more steps than any machine takes in practice. -/
@[irreducible]
def ampleFuel : Nat := 1000000000000000000

/-- The store with some library functions bound by their names. -/
def libraryStore (natives : List Native) : Store :=
  natives.foldl (fun store f => store.define Store.globalScope f.name (.native f)) Store.initial

/-- What holds of the first store and is kept when a function is bound holds of the store with some
library functions bound. -/
theorem libraryStore_rec {motive : Store → Prop} {natives : List Native}
    (initial : motive Store.initial)
    (define : ∀ store, motive store → ∀ f ∈ natives,
      motive (store.define Store.globalScope f.name (.native f))) :
    motive (libraryStore natives) :=
  List.foldlRecOn natives _ initial define

/-- A fresh session with some library functions, a limit, fuel, lines of input and a source of
draws. -/
def start (natives : List Native) (limit fuel : Nat) (input : List String) (dice : Dice) :
    Session :=
  { machine := { store := libraryStore natives, console := ⟨#[], input⟩, dice, depth := 0 }
    limit
    fuel }

/-- Runs a program; yields the value of its last statement. -/
def run (session : Session) (program : Program) : Outcome Value × Session :=
  let machine := { session.machine with depth := 0 }
  let (outcome, machine) := Eval.runProgram session.limit session.fuel .null program machine
  (outcome, { session with machine })

/-- Reads and runs a source text. -/
def eval (session : Session) (source : String) : Outcome Value × Session :=
  match parseSource source with
  | .error fault => (.failed fault, session)
  | .ok program => session.run program

/-- The names bound in the outermost scope and their values, library functions left out, in
ascending order of the names. -/
def bindings (session : Session) : List (String × Value) :=
  let store := session.machine.store
  (store.names Store.globalScope).filterMap fun name =>
    match store.get? Store.globalScope name with
    | some (.native _) | none => none
    | some value => some (name, value)

end Session

end QuantumScript
