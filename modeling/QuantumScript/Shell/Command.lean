import QuantumScript.Decimal.Reader
import QuantumScript.Number.Truncate

/-!
# Commands

What the arguments of the command line ask for.
-/

namespace QuantumScript.Shell

/-- The settings that may follow a command. -/
structure Options where
  /-- Whether the banner is left out. -/
  noBanner : Bool
  /-- How deep calls may nest. -/
  maxDepth : Option Nat
  /-- Where a build is written. -/
  out : Option String
deriving DecidableEq, Repr

/-- No settings. -/
def Options.none : Options := ⟨false, Option.none, Option.none⟩

/-- What the command line is to do. -/
inductive Command
  | help
  | version
  | run (path : String) (options : Options)
  | build (path : String) (options : Options)
  | repl (options : Options)
deriving DecidableEq, Repr

/-- Why the arguments make no command. -/
inductive Misuse
  | missingFile (command : String)
  | missingDepth
  | missingOut
  | unknownOption (option : String)
  | unknownCommand (command : String)
deriving DecidableEq, Repr

/-- The message for a misuse. -/
def Misuse.message : Misuse → String
  | missingFile _ => "missing file argument"
  | missingDepth => "--max-depth expects a positive number"
  | missingOut => "--out expects a path"
  | unknownOption option => "unknown option '" ++ option ++ "'"
  | unknownCommand command => "unknown command '" ++ command ++ "'"

/-- The least number of more than 64 bits. -/
def depthBound : Nat := 18446744073709551616

/-- The depth that a text names: decimal digits, possibly after a plus sign, of a number with at
most 64 bits. -/
def depth? (text : String) : Option Nat :=
  let digits :=
    match text.toList with
    | '+' :: rest => rest
    | all => all
  if digits.isEmpty || !digits.all Char.isDigit then none
  else
    let value := Decimal.digitsValue 0 digits
    if value < depthBound then some value else none

/-- The settings that arguments give, over those given before. -/
def parseOptions (options : Options) : List String → Except Misuse Options
  | [] => .ok options
  | "--no-banner" :: rest => parseOptions { options with noBanner := true } rest
  | ["--max-depth"] => .error .missingDepth
  | "--max-depth" :: value :: rest =>
    match depth? value with
    | some depth => parseOptions { options with maxDepth := some depth } rest
    | none => .error .missingDepth
  | ["--out"] => .error .missingOut
  | "--out" :: path :: rest => parseOptions { options with out := some path } rest
  | other :: _ => .error (.unknownOption other)

/-- A file name and settings after a command. -/
def parseFile (command : String) (make : String → Options → Command) :
    List String → Except Misuse Command
  | [] => .error (.missingFile command)
  | path :: rest =>
    if "--".isPrefixOf path then .error (.missingFile command)
    else (parseOptions .none rest).map (make path)

/-- The command that arguments ask for. -/
def parseCommand : List String → Except Misuse Command
  | [] => .ok .help
  | command :: rest =>
    match command with
    | "run" | "manifest" => parseFile "run" .run rest
    | "build" => parseFile "build" .build rest
    | "repl" => (parseOptions .none rest).map .repl
    | "help" | "--help" | "-h" => .ok .help
    | "version" | "--version" | "-v" => .ok .version
    | path =>
      if ".qbet".toList.isSuffixOf path.toList then (parseOptions .none rest).map (.run path)
      else .error (.unknownCommand path)

end QuantumScript.Shell
