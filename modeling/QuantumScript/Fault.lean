import QuantumScript.Expectation
import QuantumScript.Text.Lines

/-!
# Faults

Why a text cannot be read or a program cannot go on. A `Cause` says what is wrong and belongs to a
`Category`; a `Fault` is a cause with the region of the source it arose at, where that is known. The
report of a fault quotes the source line and marks the column.
-/

namespace QuantumScript

/-- The broad kinds of fault. -/
inductive Category
  | lexical
  | grammar
  | name
  | type
  | division
  | running
deriving DecidableEq, Repr

/-- How a report names a category. -/
def Category.label : Category → String
  | lexical => "LexError"
  | grammar => "SyntaxError"
  | name => "NameError"
  | type => "TypeError"
  | division => "DivisionByZeroError"
  | running => "RuntimeError"

/-- What is wrong. -/
inductive Cause
  | unexpectedCharacter (c : Char)
  | unterminatedString
  | invalidNumber (text : String)
  | expectedToken (want : Expectation) (got : String)
  | expectedExpression (got : String)
  | invalidAssignmentTarget
  | undefinedVariable (name : String)
  | typeMismatch (context expected got : String)
  | divisionByZero
  | notCallable (typeName : String)
  | wrongArity (name expected : String) (got : Nat)
  | indexOutOfRange (index : Int) (length : Nat)
  | undefinedMember (typeName member : String)
  | returnOutsideFunction
  | callDepthExceeded (limit : Nat)
  | zeroStep
  | rangeTooLong (limit : Nat)
deriving DecidableEq, Repr

namespace Cause

/-- The category a cause belongs to. -/
def category : Cause → Category
  | unexpectedCharacter _ | unterminatedString | invalidNumber _ => .lexical
  | expectedToken _ _ | expectedExpression _ | invalidAssignmentTarget => .grammar
  | undefinedVariable _ => .name
  | typeMismatch _ _ _ => .type
  | divisionByZero => .division
  | notCallable _ | wrongArity _ _ _ | indexOutOfRange _ _ | undefinedMember _ _
  | returnOutsideFunction | callDepthExceeded _ | zeroStep | rangeTooLong _ => .running

/-- The message for a cause. -/
def message : Cause → String
  | unexpectedCharacter c => "unexpected character '" ++ c.toString ++ "'"
  | unterminatedString => "unterminated string"
  | invalidNumber text => "invalid number '" ++ text ++ "'"
  | expectedToken want got => want.phrase ++ ", got '" ++ got ++ "'"
  | expectedExpression got => "expected expression, got '" ++ got ++ "'"
  | invalidAssignmentTarget => "invalid assignment target"
  | undefinedVariable name => "'" ++ name ++ "' is not defined"
  | typeMismatch context expected got => context ++ ": expected " ++ expected ++ ", got " ++ got
  | divisionByZero => "division by zero"
  | notCallable typeName => "value of type " ++ typeName ++ " is not callable"
  | wrongArity name expected got =>
    name ++ " expects " ++ expected ++ " arguments, got " ++ toString got
  | indexOutOfRange index length =>
    "index " ++ toString index ++ " out of range for array of length " ++ toString length
  | undefinedMember typeName member => typeName ++ " has no member '" ++ member ++ "'"
  | returnOutsideFunction => "return outside of function"
  | callDepthExceeded limit => "maximum call depth of " ++ toString limit ++ " exceeded"
  | zeroStep => "range() step cannot be zero"
  | rangeTooLong limit => "range() cannot produce more than " ++ toString limit ++ " items"

/-- A cause with its category, without a place. -/
def report (cause : Cause) : String :=
  cause.category.label ++ ": " ++ cause.message

end Cause

/-- A cause and the region of the source where it arose, if it is known. -/
structure Fault where
  /-- What is wrong. -/
  cause : Cause
  /-- Where. -/
  span : Option Span
deriving DecidableEq, Repr

namespace Fault

/-- The place, if it is known, the category and the message of a fault. -/
def headline (fault : Fault) : String :=
  match fault.span with
  | none => fault.cause.report
  | some span =>
    "[line " ++ toString span.line ++ ":" ++ toString span.column ++ "] " ++ fault.cause.report

/-- The source line of a fault with a mark under the column, if the source has that line. -/
def excerpt (fault : Fault) (source : String) : String :=
  match fault.span with
  | none => ""
  | some span =>
    match Text.line? source span.line with
    | none => ""
    | some line =>
      "\n  | " ++ line ++ "\n  | " ++ String.ofList (List.replicate (span.column - 1) ' ') ++ "^"

/-- The whole report of a fault in a source text. -/
def report (fault : Fault) (source : String) : String :=
  fault.headline ++ fault.excerpt source

end Fault

end QuantumScript
