import QuantumScript.Text.Quoted
import QuantumScript.Value.Path

/-!
# Values in text

A value is shown as a program would write it. A text is shown as it is, and quoted inside an array.
An array that stands inside itself is shown as `[...]` there.
-/

namespace QuantumScript

namespace Store

/-- The text of a value inside the arrays of a path; `nested` says whether a text is quoted. -/
def render (store : Store) (path : List ArrayId) (nested : Bool) (value : Value) : String :=
  match value with
  | .number n => Number.display n
  | .text s => if nested then Text.quoted s else s
  | .bool b => if b then "true" else "false"
  | .null => "null"
  | .array id =>
    if hp : id ∈ path then "[...]"
    else if hid : id.index < store.arrays.size then
      let parts := store.arrays[id.index].toList.map fun item => store.render (id :: path) true item
      "[" ++ ", ".intercalate parts ++ "]"
    else "[]"
  | .function id => "<function " ++ ((store.closure? id).map Closure.name).getD "" ++ ">"
  | .native f => f.display
  | .object id => ((store.object? id).map Object.display).getD ""
termination_by store.unvisited path
decreasing_by exact unvisited_cons_lt hid hp

/-- The text of a value. -/
def display (store : Store) (value : Value) : String :=
  store.render [] false value

/-- The text of a value, quoted if it is a text. -/
def inspect (store : Store) (value : Value) : String :=
  store.render [] true value

end Store

end QuantumScript
