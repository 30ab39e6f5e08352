import QuantumScript.Shell.Run

/-!
# The program

The command line over the files and streams of the system. Lines are not edited here, and draws come
from a generator with a random seed.
-/

namespace QuantumScript

/-- The file fault that an input or output error stands for. -/
def fileFault : IO.Error → Shell.FileFault
  | .noFileOrDirectory _ _ _ => .notFound
  | .inappropriateType _ 21 _ => .isDirectory
  | .inappropriateType _ 20 _ => .notDirectory
  | .userError _ => .other "stream did not contain valid UTF-8"
  | error => .other (toString error)

/-- Carries out a file operation. -/
def attempt {α : Type} (action : IO α) : IO (Except Shell.FileFault α) := do
  try return .ok (← action)
  catch error => return .error (fileFault error)

/-- The host over the files and the standard input of the system. -/
def systemHost : Shell.Host IO where
  read path := attempt (IO.FS.readFile path)
  write path text := attempt (IO.FS.writeFile path text)
  input := do
    let lines := Text.feedLines (← (← IO.getStdin).readToEnd)
    return lines.map fun line => ⟨line, line⟩

/-- A number mixed into 64 bits that look random. -/
def mixed (n : UInt64) : UInt64 :=
  let n := (n ^^^ (n >>> 30)) * 0xbf58476d1ce4e5b9
  let n := (n ^^^ (n >>> 27)) * 0x94d049bb133111eb
  n ^^^ (n >>> 31)

/-- The source of draws that a seed stands for, with 53 bits for each draw. -/
def seededDice (seed : UInt64) : Dice :=
  let bits (i : Nat) : UInt64 := mixed (seed + 0x9e3779b97f4a7c15 * UInt64.ofNat (i + 1)) >>> 11
  { fractions := fun i => (bits i).toFloat / 9007199254740992
    choices := fun i => (bits i).toNat
    taken := 0 }

end QuantumScript

/-- Carries out the arguments, gives out the report, and ends with its status. -/
def main (args : List String) : IO UInt32 := do
  let seed ← IO.rand 0 4611686018427387904
  let onTerminal ← (← IO.getStdin).isTty
  let setting : QuantumScript.Shell.Setting :=
    { depthVariable := ← IO.getEnv "QBET_MAX_DEPTH"
      ask := if onTerminal then [.out QuantumScript.Shell.prompt] else []
      dice := QuantumScript.seededDice (UInt64.ofNat seed) }
  let report ← QuantumScript.Shell.run QuantumScript.systemHost setting args
  for output in report.output do
    match output with
    | .out text => IO.print text
    | .err text => IO.eprint text
  return UInt32.ofNat report.status
