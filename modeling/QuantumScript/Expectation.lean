import QuantumScript.Token

/-!
# What a reader of tokens expected

When the tokens do not go on as they must, the message says what was expected. The first group
belongs to programs, the second to creation files.
-/

namespace QuantumScript

/-- What was expected where a token does not fit. -/
inductive Expectation
  | parenAfter (word : Keyword)
  | parenAfterCondition
  | functionName
  | parenAfterFunctionName
  | parameterName
  | parenAfterParameters
  | loopVariable
  | inAfterLoopVariable
  | parenAfterForClause
  | moduleName
  | aliasName
  | blockStart
  | blockEnd
  | parenAfterArguments
  | memberName
  | bracketAfterIndex
  | parenAfterExpression
  | bracketAfterElements
  | universeName
  | universeStart
  | universeEnd
  | entityName
  | entityStart
  | entityEnd
  | propertyName
  | colonAfterProperty
  | propertyValue
  | manifestUniverse
  | withWord
  | manifestEntity
  | timeWord
  | timeDirection
  | observedName
deriving DecidableEq, Repr

/-- The words of a message for what was expected. -/
def Expectation.phrase : Expectation → String
  | parenAfter word => "expected '(' after '" ++ word.spelling ++ "'"
  | parenAfterCondition => "expected ')' after condition"
  | functionName => "expected function name"
  | parenAfterFunctionName => "expected '(' after function name"
  | parameterName => "expected parameter name"
  | parenAfterParameters => "expected ')' after parameters"
  | loopVariable => "expected variable name in for loop"
  | inAfterLoopVariable => "expected 'in' after loop variable"
  | parenAfterForClause => "expected ')' after for clause"
  | moduleName => "expected module name after 'import'"
  | aliasName => "expected alias after 'as'"
  | blockStart => "expected '\x7b' to start block"
  | blockEnd => "expected '\x7d' after block"
  | parenAfterArguments => "expected ')' after arguments"
  | memberName => "expected member name after '.'"
  | bracketAfterIndex => "expected ']' after index"
  | parenAfterExpression => "expected ')' after expression"
  | bracketAfterElements => "expected ']' after array elements"
  | universeName => "expected universe name"
  | universeStart => "expected '\x7b' after universe name"
  | universeEnd => "expected '\x7d' after universe body"
  | entityName => "expected entity name"
  | entityStart => "expected '\x7b' after entity name"
  | entityEnd => "expected '\x7d' after entity body"
  | propertyName => "expected property name"
  | colonAfterProperty => "expected ':' after property name"
  | propertyValue => "expected property value"
  | manifestUniverse => "expected universe name after 'manifest'"
  | withWord => "expected 'with'"
  | manifestEntity => "expected entity name after 'with'"
  | timeWord => "expected 'time' after 'flow'"
  | timeDirection => "expected time direction"
  | observedName => "expected name after 'observe'"

end QuantumScript
