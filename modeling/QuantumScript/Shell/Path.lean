/-!
# Paths

The name of the file that a creation is written to when none is given: the name of its source with
another extension.
-/

namespace QuantumScript.Shell

/-- A path cut after its last slash: the directory and the file name. -/
def splitPath (path : List Char) : List Char × List Char :=
  let name := (path.reverse.takeWhile (· ≠ '/')).reverse
  (path.take (path.length - name.length), name)

/-- A file name cut at its last dot: the stem, and the extension if there is one. A name that starts
with its only dot has no extension. -/
def splitName (name : List Char) : List Char × Option (List Char) :=
  let extension := (name.reverse.takeWhile (· ≠ '.')).reverse
  if extension.length = name.length then (name, none)
  else
    let stem := name.take (name.length - extension.length - 1)
    if stem.isEmpty || name = ['.', '.'] then (name, none) else (stem, some extension)

/-- A path with another extension. The old extension is cut off first; if what is left is the name
of the parent directory, it stays as it is. -/
def withExtension (path : String) (extension : String) : String :=
  let (directory, name) := splitPath path.toList
  let kept :=
    match (splitName name).2 with
    | none => name
    | some old => name.take (name.length - old.length)
  if kept = ['.', '.'] then String.ofList (directory ++ kept)
  else String.ofList (directory ++ (splitName kept).1 ++ '.' :: extension.toList)

end QuantumScript.Shell
