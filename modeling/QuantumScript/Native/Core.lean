import QuantumScript.Decimal.Reader
import QuantumScript.Native.Argument
import QuantumScript.Native.Range
import QuantumScript.Text.Blank
import QuantumScript.Value.Display

/-!
# Core functions

Input, output, conversions, arithmetic and arrays.
-/

namespace QuantumScript.Native

/-- The number that a function of numbers gives. -/
def Math.apply : Math → Float → Float
  | .abs, x => x.abs
  | .sqrt, x => x.sqrt
  | .sin, x => x.sin
  | .cos, x => x.cos
  | .floor, x => x.floor
  | .ceil, x => x.ceil
  | .round, x => x.round

/-- Shows the texts of some values on one line. -/
def print (args : List Value) (m : Machine) : Result :=
  let line := " ".intercalate (args.map m.store.display)
  (.ok .null, { m with console := m.console.writeLine line })

/-- Takes a line of input, after a question that may be missing; `null` if there is none left. -/
def input (question : Option Value) (m : Machine) : Result :=
  let prompt := (question.map m.store.display).getD ""
  let (line, console) := m.console.readLine prompt
  (.ok ((line.map Value.text).getD .null), { m with console })

/-- A value as a number: a text by the number it spells, a truth value as 1 or 0, and `null` for
what has no number. -/
def toNumber : Value → Value
  | .number n => .number n
  | .text s => ((Decimal.read? (Text.trim s)).map Value.number).getD .null
  | .bool b => .number (if b then 1 else 0)
  | _ => .null

/-- The number of characters of a text or of items of an array. -/
def length? (store : Store) : Value → Option Float
  | .text s => some (Number.ofCount s.length)
  | .array id => some (Number.ofCount (store.items id).size)
  | _ => none

/-- The length of a text or array. -/
def len (given : Value) (m : Machine) : Result :=
  match length? m.store given with
  | some n => (.ok (.number n), m)
  | none => (.error (typeError m.store "len" "a string or array" given), m)

/-- Adds an item at the end of an array, and yields the array. -/
def push (given item : Value) (m : Machine) : Result :=
  match given with
  | .array id => (.ok given, m.mapStore fun store => store.push id item)
  | _ => (.error (typeError m.store "push" "an array" given), m)

/-- Removes the last item of an array, and yields it; `null` if there is none. -/
def pop (given : Value) (m : Machine) : Result :=
  match given with
  | .array id =>
    let last := (m.store.items id).back?.getD .null
    (.ok last, m.mapStore fun store => store.pop id)
  | _ => (.error (typeError m.store "pop" "an array" given), m)

/-- Makes an array of the whole numbers from `start` to `stop`, by steps. -/
def range (start stop step : Float) (m : Machine) : Result :=
  let step := Number.truncate step
  if step = 0 then (.error .zeroStep, m)
  else
    match range? (Number.truncate start) (Number.truncate stop) step with
    | none => (.error (.rangeTooLong rangeLimit), m)
    | some numbers =>
      let (value, m) := m.newArray (numbers.map fun i => .number (Number.ofInt i))
      (.ok value, m)

/-- What a core function does with its arguments. -/
def Core.run (f : Core) (args : List Value) (m : Machine) : Result :=
  match f, args with
  | .print, args => Native.print args m
  | .input, [] => Native.input none m
  | .input, [question] => Native.input (some question) m
  | .number, [given] => (.ok (toNumber given), m)
  | .string, [given] => (.ok (.text (m.store.display given)), m)
  | .boolean, [given] => (.ok (.bool given.isTruthy), m)
  | .math f, [given] =>
    reading m (numberArg m.store f.name given) fun x => (.ok (.number (f.apply x)), m)
  | .len, [given] => Native.len given m
  | .push, [given, item] => Native.push given item m
  | .pop, [given] => Native.pop given m
  | .type, [given] => (.ok (.text (m.store.typeName given)), m)
  | .range, [stop] =>
    reading m (numberArg m.store "range" stop) fun stop => Native.range 0 stop 1 m
  | .range, [start, stop] =>
    reading m (numberArg m.store "range" start) fun start =>
    reading m (numberArg m.store "range" stop) fun stop => Native.range start stop 1 m
  | .range, [start, stop, step] =>
    reading m (numberArg m.store "range" start) fun start =>
    reading m (numberArg m.store "range" stop) fun stop =>
    reading m (numberArg m.store "range" step) fun step => Native.range start stop step m
  | f, args => (.error (wrongArity f.name f.arity args), m)

end QuantumScript.Native
