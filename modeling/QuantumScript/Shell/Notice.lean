import QuantumScript.Version

/-!
# What the command line shows

The banner, the help texts and the other fixed notices, each as the lines it is made of.
-/

namespace QuantumScript.Shell

/-- Lines, each with its line end. -/
def block (lines : List String) : String :=
  String.join (lines.map fun line => line ++ "\n")

/-- The banner above a run. -/
def banner : String :=
  block
    ["  ____  ____  ______ ______",
     " / __ \\/ __ )/ ____//_  __/",
     "/ /_/ / __  / __/    / /",
     "\\___\\_\\____/_____/  /_/",
     "QBET quantum-spiritual runtime v" ++ version,
     ""]

/-- The version notice. -/
def versionNotice : String :=
  block ["QBET " ++ version]

/-- The help text of the command line. -/
def help : String :=
  block
    ["QBET",
     "A quantum-spiritual scripting language",
     "Version " ++ version,
     "",
     "USAGE:",
     "  qbet run <file.qbet>      Execute a QBET file",
     "  qbet manifest <file.qbet> Same as run",
     "  qbet build <file.qbet>    Lower a creation file to JSON",
     "  qbet repl                 Start interactive REPL",
     "  qbet help                 Show this help message",
     "  qbet version              Show version",
     "",
     "OPTIONS:",
     "  --no-banner               Do not print the banner",
     "  --max-depth <n>           Limit nested function calls (env: QBET_MAX_DEPTH)",
     "  --out <path>              Output file for build (default: <file>.qb)",
     "",
     "LANGUAGE FEATURES:",
     "  x = 10                    Assignment",
     "  function f(a) \x7b return a \x7d Function definition",
     "  for (n in range(3)) \x7b \x7d   Iterate an array",
     "  q = hadamard(qubit())     Quantum helpers",
     "  balance_chakra(chakra())  Spiritual helpers"]

/-- What greets an interactive session. -/
def greeting : String :=
  block ["Type exit to exit, help for help", ""]

/-- The help text of an interactive session. -/
def sessionHelp : String :=
  block
    ["REPL Commands:",
     "  exit, quit   Exit the REPL",
     "  clear        Reset all bindings",
     "  env          Show global bindings",
     "  help         Show this help",
     "",
     "Language Examples:",
     "  x = 10",
     "  function double(n) \x7b return n * 2 \x7d",
     "  print(double(x))",
     "  q = qubit(); hadamard(q); measure(q)",
     "  c = chakra(\"heart\"); c.balance(10)"]

/-- What asks for a line of an interactive session. -/
def prompt : String := "qbet> "

/-- What ends an interactive session. -/
def farewell : String :=
  block ["Goodbye!"]

end QuantumScript.Shell
