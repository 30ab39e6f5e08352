/-!
# Files

What can go wrong with a file, and a directory of files as a value, on which the command line can be
run without a disk.
-/

namespace QuantumScript.Shell

/-- Why a file cannot be read or written. -/
inductive FileFault
  | notFound
  | isDirectory
  | notDirectory
  | nameTooLong
  | other (message : String)
deriving DecidableEq, Repr

/-- The message for a file fault. -/
def FileFault.message : FileFault → String
  | notFound => "No such file or directory (os error 2)"
  | isDirectory => "Is a directory (os error 21)"
  | notDirectory => "Not a directory (os error 20)"
  | nameTooLong => "File name too long (os error 36)"
  | other message => message

/-- A directory: its files with their paths as lists of names. A directory inside it exists as soon
as it holds a file. Around it lie other directories, of which nothing else is known. -/
structure Files where
  /-- The path and the text of each file. -/
  entries : List (List String × String)
deriving DecidableEq, Repr

/-- What a path leads to. -/
inductive Files.Place
  /-- A directory around the top directory. -/
  | outside
  /-- A directory. -/
  | directory (path : List String)
  /-- A file. -/
  | file (path : List String) (text : String)

namespace Files

/-- Whether a path names a directory. -/
def isDirectory (files : Files) (path : List String) : Bool :=
  path.isEmpty || files.entries.any fun (other, _) => path.isPrefixOf other && path ≠ other

/-- The most bytes that one name of a path may have. -/
def nameLimit : Nat := 255

/-- The most bytes that a path may have. -/
def pathLimit : Nat := 4095

/-- What a name leads to that stands for nothing. -/
def missing (name : String) : FileFault :=
  if nameLimit < name.utf8ByteSize then .nameTooLong else .notFound

/-- Where one name of a path leads from a place. -/
def step (files : Files) (place : Place) (name : String) : Except FileFault Place :=
  match place with
  | .file _ _ => .error .notDirectory
  | .outside => if name = "." || name = ".." then .ok .outside else .error (missing name)
  | .directory path =>
    if name = "." then .ok place
    else if name = ".." then .ok (if path.isEmpty then .outside else .directory path.dropLast)
    else
      let inner := path ++ [name]
      match files.entries.lookup inner with
      | some text => .ok (.file inner text)
      | none => if files.isDirectory inner then .ok (.directory inner) else .error (missing name)

/-- The names of a path. -/
def names (path : String) : List String :=
  (path.splitOn "/").filter fun name => name ≠ ""

/-- Where a path starts: one that starts with a slash outside, any other in the top directory. -/
def origin (path : String) : Place :=
  if path.toList.head? = some '/' then .outside else .directory []

/-- Where some names lead from a place. -/
def walk (files : Files) (place : Place) (names : List String) : Except FileFault Place :=
  names.foldlM files.step place

/-- Whether a path ends in a slash. -/
def endsInSlash (path : String) : Bool :=
  path.toList.getLast? = some '/'

/-- Refuses a path that leads nowhere by its form. -/
def checkForm (path : String) : Except FileFault Unit :=
  if path = "" then .error .notFound
  else if pathLimit < path.utf8ByteSize then .error .nameTooLong
  else .ok ()

/-- The text of a file. -/
def read (files : Files) (path : String) : Except FileFault String := do
  checkForm path
  match ← files.walk (origin path) (names path) with
  | .outside | .directory _ => throw .isDirectory
  | .file _ text => if endsInSlash path then throw .notDirectory else return text

/-- The files with a text put at a path. -/
def put (path : List String) (text : String) :
    List (List String × String) → List (List String × String)
  | [] => [(path, text)]
  | (other, old) :: rest =>
    if other = path then (path, text) :: rest else (other, old) :: put path text rest

/-- Refuses a name under which no file can be put. -/
def checkTarget (path name : String) : Except FileFault Unit :=
  if endsInSlash path || name = "." || name = ".." then .error .isDirectory
  else if nameLimit < name.utf8ByteSize then .error .nameTooLong
  else .ok ()

/-- The files after a text is written to a path. A file outside changes none of them. -/
def write (files : Files) (path text : String) : Except FileFault Files := do
  checkForm path
  let names := names path
  let name := names.getLast?.getD "."
  match ← files.walk (origin path) names.dropLast with
  | .file _ _ => throw .notDirectory
  | .outside =>
    checkTarget path name
    return files
  | .directory directory =>
    checkTarget path name
    let target := directory ++ [name]
    if files.isDirectory target then throw .isDirectory
    return ⟨put target text files.entries⟩

/-- The files of a directory that are not in another, or have another text there, with their
paths. -/
def changedSince (files before : Files) : List (String × String) :=
  (files.entries.filter fun (path, text) => before.entries.lookup path ≠ some text).map
    fun (path, text) => ("/".intercalate path, text)

/-- A directory with the given files. -/
def ofList (entries : List (String × String)) : Files :=
  ⟨entries.map fun (path, text) => ((names path).filter fun name => name ≠ ".", text)⟩

end Files

end QuantumScript.Shell
