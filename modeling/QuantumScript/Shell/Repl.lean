import QuantumScript.Session
import QuantumScript.Shell.Notice
import QuantumScript.Shell.Output
import QuantumScript.Text.Blank

/-!
# Interactive sessions

An interactive session runs the lines of its input one by one, each as a source text of its own. A
few words are commands to the session itself. A program that asks for input takes the lines that
follow.

The session gets its lines from a line editor, of which nothing is known but the lines that it
returns. A program that asks for input gets the lines as they are.
-/

namespace QuantumScript.Shell

/-- A line of the standard input. -/
structure Line where
  /-- The line that the line editor returns when the session asks for one. -/
  edited : String
  /-- The line as it is read when a program asks for input. -/
  raw : String

/-- A line of input as a program gets it: without the carriage returns at its end. -/
def Line.input (line : Line) : String :=
  String.ofList (line.raw.toList.reverse.dropWhile (· = '\r')).reverse

/-! ## Orders -/

/-- What a line asks of an interactive session. -/
inductive Order
  /-- Nothing. -/
  | nothing
  /-- To end. -/
  | leave
  /-- To show the help text. -/
  | help
  /-- To forget everything. -/
  | reset
  /-- To show what is bound. -/
  | bindings
  /-- To run a source text. -/
  | run (source : String)
deriving DecidableEq, Repr

/-- What a line of input asks, the blanks around it aside. -/
def Order.ofLine (line : Line) : Order :=
  match Text.trim line.edited with
  | "" => nothing
  | "exit" | "quit" => leave
  | "help" => help
  | "clear" => reset
  | "env" => bindings
  | source => run source

/-- What the outcome of a source text shows. -/
def showOutcome (session : Session) (source : String) : Outcome Value → List Output
  | .done .null => []
  | .done value => [.out ("=> " ++ session.machine.store.display value ++ "\n")]
  | .failed fault => [.err (fault.report source ++ "\n")]
  | .crashed | .outOfFuel => []

/-- What the names bound in a session show. -/
def showBindings (session : Session) : List Output :=
  match session.bindings with
  | [] => [.out "No bindings yet.\n"]
  | bindings =>
    bindings.map fun (name, value) =>
      .out ("  " ++ name ++ " = " ++ session.machine.store.display value ++ "\n")

/-- What the run of one line leaves. -/
structure Step where
  /-- How the run ended. -/
  outcome : Outcome Value
  /-- What was shown. -/
  shown : List Output
  /-- The session after it. -/
  session : Session
  /-- How many of the lines that follow were taken as input. -/
  taken : Nat

/-- Runs a source text in a session, with the lines that follow as its input. -/
def evalLine (session : Session) (source : String) (rest : List Line) : Step :=
  let console := session.machine.console
  let machine :=
    { session.machine with console := { console with pending := rest.map Line.input } }
  let (outcome, after) := Session.eval { session with machine } source
  let shown := shownFrom after.machine.console console.shown.size
  { outcome
    shown := shown ++ showOutcome after source outcome
    session := after
    taken := rest.length - after.machine.console.pending.length }

/-- Runs an interactive session on lines of input, after passing over the first `taken` of them;
`ask` is shown before each line, and `fresh` is the session that a reset goes back to. A crash ends
the session. -/
def replLoop (ask : List Output) (fresh session : Session) (taken : Nat) : List Line → Report
  | [] => .success (ask ++ [.out farewell])
  | line :: rest =>
    match taken with
    | taken + 1 => replLoop ask fresh session taken rest
    | 0 =>
      Report.after ask <|
        match Order.ofLine line with
        | .nothing => replLoop ask fresh session 0 rest
        | .leave => .success [.out farewell]
        | .help => (replLoop ask fresh session 0 rest).after [.out sessionHelp]
        | .reset => (replLoop ask fresh fresh 0 rest).after [.out "State cleared.\n"]
        | .bindings => (replLoop ask fresh session 0 rest).after (showBindings session)
        | .run source =>
          let step := evalLine session source rest
          match step.outcome with
          | .crashed => .crash step.shown
          | _ => (replLoop ask fresh step.session step.taken rest).after step.shown

end QuantumScript.Shell
