import QuantumScript.Machine

/-!
# What a command gives out

Texts for the two output channels, in order, and an exit status.
-/

namespace QuantumScript.Shell

/-- A text for an output channel. -/
inductive Output
  /-- For the standard output. -/
  | out (text : String)
  /-- For the standard error. -/
  | err (text : String)
deriving DecidableEq, Repr

/-- What a command gives out. -/
structure Report where
  /-- The texts, in order. -/
  output : List Output
  /-- The exit status. -/
  status : Nat
deriving DecidableEq, Repr

namespace Report

/-- The text on the standard output. -/
def stdout (report : Report) : String :=
  String.join (report.output.map fun
    | .out text => text
    | .err _ => "")

/-- The text on the standard error. -/
def stderr (report : Report) : String :=
  String.join (report.output.map fun
    | .out _ => ""
    | .err text => text)

/-- The report of a command that went well. -/
def success (output : List Output) : Report := ⟨output, 0⟩

/-- The report of a command that failed after some output. -/
def failure (output : List Output) (message : String) : Report :=
  ⟨output ++ [.err (message ++ "\n")], 1⟩

/-- The report of a command that crashes after some output. -/
def crash (output : List Output) : Report := ⟨output, 101⟩

/-- The report with some output before its own. -/
def after (output : List Output) (report : Report) : Report :=
  { report with output := output ++ report.output }

/-- The report of a command that cannot be carried out. -/
def refusal (output : List Output) (message : String) : Report :=
  failure output ("error: " ++ message)

end Report

/-- What a console showed from the `start`-th event on. -/
def shownFrom (console : Console) (start : Nat) : List Output :=
  (console.shown.toList.drop start).map fun
    | .line text => .out (text ++ "\n")
    | .prompt text => .out text

end QuantumScript.Shell
