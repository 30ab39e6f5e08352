import QuantumScript.Creation.Lower
import QuantumScript.Shell.Command
import QuantumScript.Shell.Files
import QuantumScript.Shell.Path
import QuantumScript.Shell.Repl

/-!
# Carrying out commands

A command is carried out with the help of a host, which reads and writes files and provides the
lines of the standard input. What is given out is collected in a report.
-/

namespace QuantumScript.Shell

/-- What a command needs from outside. -/
structure Host (m : Type → Type) where
  /-- Reads a file. -/
  read : String → m (Except FileFault String)
  /-- Writes a file. -/
  write : String → String → m (Except FileFault Unit)
  /-- The lines of the standard input. -/
  input : m (List Line)

/-- What else a command depends on. -/
structure Setting where
  /-- The limit on nested calls that the environment gives. -/
  depthVariable : Option String
  /-- What the line editor shows before each line of an interactive session. -/
  ask : List Output
  /-- The source of random draws. -/
  dice : Dice

/-- The limit on nested calls: the option first, then the environment, then the default; or the
message that the environment gives none. -/
def depthLimit (setting : Setting) (options : Options) : Except String Nat :=
  match options.maxDepth, setting.depthVariable with
  | some depth, _ => .ok depth
  | none, none => .ok Session.defaultLimit
  | none, some text =>
    match depth? text with
    | some depth => .ok depth
    | none => .error ("QBET_MAX_DEPTH must be a number, got '" ++ text ++ "'")

/-- The banner, unless it is left out. -/
def bannerOf (options : Options) : List Output :=
  if options.noBanner then [] else [.out banner]

/-- A fresh session with the whole library. -/
def freshSession (setting : Setting) (limit : Nat) (input : List String) : Session :=
  Session.start Native.library limit Session.ampleFuel input setting.dice

/-- Runs a program with lines of input to take. -/
def runSource (setting : Setting) (options : Options) (source : String) (input : List Line) :
    Report :=
  match depthLimit setting options with
  | .error message => .refusal (bannerOf options) message
  | .ok limit =>
    let (outcome, session) := (freshSession setting limit (input.map Line.input)).eval source
    let output := bannerOf options ++ shownFrom session.machine.console 0
    match outcome with
    | .failed fault => .failure output (fault.report source)
    | .crashed => .crash output
    | .done _ | .outOfFuel => .success output

/-- Runs an interactive session on lines of input. -/
def runRepl (setting : Setting) (options : Options) (input : List Line) : Report :=
  let output := bannerOf options ++ [.out greeting]
  match depthLimit setting options with
  | .error message => .refusal output message
  | .ok limit =>
    let fresh := freshSession setting limit []
    (replLoop setting.ask fresh fresh 0 input).after output

/-- The report that a file cannot be read. -/
def unreadable (path : String) (fault : FileFault) : Report :=
  .refusal [] ("cannot read file '" ++ path ++ "': " ++ fault.message)

/-- Where the build of a file is written. -/
def buildPath (path : String) (options : Options) : String :=
  options.out.getD (withExtension path "qb")

/-- The report of a build after its text was written, or could not be. -/
def builtReport (out : String) : Except FileFault Unit → Report
  | .ok _ => .success [.out ("Lowered " ++ out ++ "\n")]
  | .error fault => .refusal [] ("cannot write '" ++ out ++ "': " ++ fault.message)

/-- The report that the arguments make no command. -/
def misuseReport (misuse : Misuse) : Report :=
  let refused := Report.refusal [] misuse.message
  match misuse with
  | .missingFile command =>
    { refused with
      output := refused.output ++ [.err ("Usage: qbet " ++ command ++ " <file.qbet>\n")] }
  | .unknownCommand _ => { refused with output := refused.output ++ [.out help] }
  | _ => refused

/-- Carries out a command. -/
def perform {m : Type → Type} [Monad m] (host : Host m) (setting : Setting) :
    Command → m Report
  | .help => return .success [.out help]
  | .version => return .success [.out versionNotice]
  | .repl options => do
    let input ← host.input
    return runRepl setting options input
  | .run path options => do
    match ← host.read path with
    | .error fault => return unreadable path fault
    | .ok source =>
      let input ← host.input
      return runSource setting options source input
  | .build path options => do
    match ← host.read path with
    | .error fault => return unreadable path fault
    | .ok source =>
      match Creation.ofSource path source with
      | .error fault => return .failure [] (fault.report source)
      | .ok creation =>
        let out := buildPath path options
        let written ← host.write out creation.text
        return builtReport out written

/-- Carries out what the arguments of the command line ask for. -/
def run {m : Type → Type} [Monad m] (host : Host m) (setting : Setting) (args : List String) :
    m Report :=
  match parseCommand args with
  | .error misuse => return misuseReport misuse
  | .ok command => perform host setting command

/-! ## On a directory as a value -/

/-- The host over a directory as a value, with given lines of the standard input. -/
def Files.host (input : List Line) : Host (StateM Files) where
  read path := do return (← get).read path
  write path text := do
    match (← get).write path text with
    | .ok files =>
      set files
      return .ok ()
    | .error fault => return .error fault
  input := return input

/-- The report of the command line on a directory, and the directory it leaves. -/
def runOn (files : Files) (input : List Line) (setting : Setting) (args : List String) :
    Report × Files :=
  (run (Files.host input) setting args).run files

end QuantumScript.Shell
