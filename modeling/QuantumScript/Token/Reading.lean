import QuantumScript.Fault

/-!
# Reading from a list of tokens

A reader takes tokens from the front of a list and leaves the rest. It takes at least one token, so
that the rest is shorter, or it is stuck at a token that does not fit.
-/

namespace QuantumScript

/-- Why a reader is stuck. -/
inductive Stuck.Reason
  /-- Something else was expected here. -/
  | expected (want : Expectation)
  /-- No expression starts here. -/
  | expression
  /-- What stands before this assignment sign cannot be assigned to. -/
  | assignmentTarget
deriving DecidableEq, Repr

/-- A reader that cannot go on: the tokens left start with the one that does not fit, or there are
none. -/
structure Stuck where
  /-- Why it is stuck. -/
  reason : Stuck.Reason
  /-- The tokens left. -/
  rest : List Token
deriving DecidableEq

namespace Stuck

/-- How a message names the token a reader is stuck at. -/
def got (stuck : Stuck) : String :=
  match stuck.rest with
  | [] => Tokens.endSpelling
  | t :: _ => t.kind.spelling

/-- The cause that a stuck reader reports. -/
def cause (stuck : Stuck) : Cause :=
  match stuck.reason with
  | .expected want => .expectedToken want stuck.got
  | .expression => .expectedExpression stuck.got
  | .assignmentTarget => .invalidAssignmentTarget

/-- The fault that a stuck reader reports, at the token it is stuck at or at the end of the
source. -/
def fault (stuck : Stuck) (ending : Span) : Fault :=
  match stuck.rest with
  | [] => ⟨stuck.cause, some ending⟩
  | t :: _ => ⟨stuck.cause, some t.span⟩

end Stuck

/-- What a reader found and the tokens it left, fewer than `bound`. -/
structure Found (α : Type) (bound : Nat) where
  /-- What was found. -/
  value : α
  /-- The tokens left. -/
  rest : List Token
  /-- They are fewer than before. -/
  shorter : rest.length < bound

/-- A value read from the front of a list of tokens, taking at least one of them. -/
abbrev Reading (α : Type) (ts : List Token) := Except Stuck (Found α ts.length)

/-- A value read from the front of a list of tokens, taking any number of them. -/
abbrev LooseReading (α : Type) (ts : List Token) := Except Stuck (Found α (ts.length + 1))

namespace Token

/-- The tokens from the first that is not a line end. -/
def skipNewlines (ts : List Token) : List Token :=
  ts.dropWhile isNewline

/-- The tokens from the first that does not separate statements. -/
def skipSeparators (ts : List Token) : List Token :=
  ts.dropWhile isSeparator

/-- Whether the first token that is not a line end satisfies a test. -/
def nextIs (test : Token → Bool) (ts : List Token) : Bool :=
  match skipNewlines ts with
  | [] => false
  | t :: _ => test t

/-- Dropping tokens from the front makes no list longer. -/
theorem length_dropWhile_le (p : Token → Bool) (ts : List Token) :
    (ts.dropWhile p).length ≤ ts.length :=
  (List.dropWhile_suffix p).length_le

/-- Skipping line ends makes no list longer. -/
theorem length_skipNewlines_le (ts : List Token) : (skipNewlines ts).length ≤ ts.length :=
  length_dropWhile_le _ ts

/-- Skipping separators makes no list longer. -/
theorem length_skipSeparators_le (ts : List Token) : (skipSeparators ts).length ≤ ts.length :=
  length_dropWhile_le _ ts

end Token

namespace Reading

variable {α β : Type} {ts rest : List Token}

/-- The reading that takes one token. -/
def token (value : α) (t : Token) (rest : List Token) : Reading α (t :: rest) :=
  .ok ⟨value, rest, Nat.lt_succ_self rest.length⟩

/-- A reading with the value found changed. -/
def map (f : α → β) (reading : Reading α ts) : Reading β ts :=
  match reading with
  | .error stuck => .error stuck
  | .ok found => .ok ⟨f found.value, found.rest, found.shorter⟩

/-- A reading from the rest of some tokens is one from all of them. -/
def widen (reading : Reading α rest) (h : rest.length ≤ ts.length) : Reading α ts :=
  match reading with
  | .error stuck => .error stuck
  | .ok found => .ok ⟨found.value, found.rest, Nat.lt_of_lt_of_le found.shorter h⟩

/-- A reading of what stands behind a token. -/
def behind (t : Token) (reading : Reading α rest) : Reading α (t :: rest) :=
  reading.widen (Nat.le_succ rest.length)

/-- A reading, as one that may take nothing. -/
def loosen (reading : Reading α ts) : LooseReading α ts :=
  match reading with
  | .error stuck => .error stuck
  | .ok found => .ok ⟨found.value, found.rest, Nat.lt_succ_of_lt found.shorter⟩

/-- Goes on from what a reading found and left. The second reading may take nothing. -/
def andMaybe (reading : Reading α ts)
    (next : α → (rest : List Token) → rest.length < ts.length → LooseReading β rest) :
    Reading β ts :=
  match reading with
  | .error stuck => .error stuck
  | .ok first =>
    match next first.value first.rest first.shorter with
    | .error stuck => .error stuck
    | .ok second =>
      .ok ⟨second.value, second.rest, Nat.lt_of_lt_of_le second.shorter first.shorter⟩

/-- Goes on from what a reading found and left. -/
def andThen (reading : Reading α ts)
    (next : α → (rest : List Token) → rest.length < ts.length → Reading β rest) :
    Reading β ts :=
  reading.andMaybe fun value rest h => (next value rest h).loosen

/-- Reads behind the line ends at the front. -/
def pastNewlines (ts : List Token)
    (next : (rest : List Token) → rest.length ≤ ts.length → Reading α rest) : Reading α ts :=
  (next (Token.skipNewlines ts) (Token.length_skipNewlines_le ts)).widen
    (Token.length_skipNewlines_le ts)

/-- Reads behind the separators at the front. -/
def pastSeparators (ts : List Token)
    (next : (rest : List Token) → rest.length ≤ ts.length → Reading α rest) : Reading α ts :=
  (next (Token.skipSeparators ts) (Token.length_skipSeparators_le ts)).widen
    (Token.length_skipSeparators_le ts)

end Reading

namespace LooseReading

variable {α β : Type} {ts rest : List Token}

/-- The reading that takes nothing. -/
def nothing (value : α) (ts : List Token) : LooseReading α ts :=
  .ok ⟨value, ts, Nat.lt_succ_self ts.length⟩

/-- A reading with the value found changed. -/
def map (f : α → β) (reading : LooseReading α ts) : LooseReading β ts :=
  match reading with
  | .error stuck => .error stuck
  | .ok found => .ok ⟨f found.value, found.rest, found.shorter⟩

/-- A reading of what stands behind a token. -/
def behind (t : Token) (reading : Reading α rest) : LooseReading α (t :: rest) :=
  (Reading.behind t reading).loosen

end LooseReading

namespace Token

/-- Reads a token that satisfies a test. -/
def take (test : Token → Bool) (want : Expectation) (ts : List Token) : Reading Token ts :=
  match ts with
  | [] => .error ⟨.expected want, []⟩
  | t :: rest => if test t then .token t t rest else .error ⟨.expected want, t :: rest⟩

/-- Reads a given symbol. -/
def takeSymbol (sign : Symbol) (want : Expectation) (ts : List Token) : Reading Token ts :=
  take (·.isSymbol sign) want ts

/-- Reads a given keyword. -/
def takeKeyword (word : Keyword) (want : Expectation) (ts : List Token) : Reading Token ts :=
  take (·.isKeyword word) want ts

/-- Reads a name, and gives it with its region. -/
def takeName (want : Expectation) (ts : List Token) : Reading (String × Span) ts :=
  match ts with
  | [] => .error ⟨.expected want, []⟩
  | t :: rest =>
    match t.kind with
    | .name value => .token (value, t.span) t rest
    | _ => .error ⟨.expected want, t :: rest⟩

end Token

end QuantumScript
