import QuantumScript.Creation.Lower
import QuantumScript.Proofs.Cursor.Reader

/-!
# Reading creations with a cursor

A creation file is read with a cursor in one loop over its tokens: a word that leads a form is read
with what follows it, and every other token is passed over. Inside a form there are loops over the
properties and over the values of a property.
-/

namespace QuantumScript

namespace Cursor

open Creation

/-! ## Values -/

/-- Whether a property starts at the cursor: a name with a colon behind it. -/
def atProperty : Cursor Bool := do
  match (← peek).map Token.kind with
  | some (.name _) => return (← look ((← place) + 1)).any (·.isSymbol .colon)
  | _ => return false

/-- Reads a value or a comma. -/
def valueRound (values : List Json) : Cursor (Round (List Json)) := do
  match ← peek with
  | none => return .absent values
  | some t =>
    if t.isSymbol .closeBrace then
      return .absent values
    else if ← atProperty then
      return .absent values
    else
      let _ ← advance
      return .more (if t.isSymbol .comma then values else values ++ [literal t])

/-- Reads the values of a property of a universe. -/
def cosmosValue : Cursor Json := do
  let values ← loop valueRound []
  return collect values

/-- Reads the value of a property of an entity, and the comma that may follow it. -/
def entityValue : Cursor Json := do
  let t ← expect (fun _ => true) .propertyValue
  let _ ← accept (·.isSymbol .comma)
  return literal t

/-! ## Forms -/

/-- Reads a property, its value by a given reader. -/
def propertyRound (value : Cursor Json) (found : Properties) : Cursor (Round Properties) := do
  if ← check (·.isSymbol .closeBrace) then
    return .absent found
  else if ← isAtEnd then
    return .absent found
  else
    let key ← expectName .propertyName
    let _ ← expectSymbol .colon .colonAfterProperty
    let json ← value
    return .more (Properties.put key json found)

/-- Reads properties up to the closing brace. -/
def properties (value : Cursor Json) (want : Expectation) : Cursor Properties := do
  let found ← loop (propertyRound value) []
  let _ ← expectSymbol .closeBrace want
  return found

/-- Reads a universe, from its word on. -/
def cosmosForm : Cursor Instruction := do
  let _ ← advance
  let name ← expectName .universeName
  let _ ← expectSymbol .openBrace .universeStart
  let found ← properties cosmosValue .universeEnd
  return .cosmos name found

/-- Reads an entity, from its word on. -/
def entityForm : Cursor Instruction := do
  let _ ← advance
  let name ← expectName .entityName
  let _ ← expectSymbol .openBrace .entityStart
  let found ← properties entityValue .entityEnd
  return .entity name found

/-- Moves over the word `with`, or fails; another name is blamed as the one that it is. -/
def withWord : Cursor Unit := do
  let (word, region) ← withRegion (expectName .withWord)
  if word = "with" then
    return ()
  else
    fail ⟨.expectedToken .withWord word, some region⟩

/-- Reads a manifestation, from its word on. -/
def manifestForm : Cursor Instruction := do
  let _ ← advance
  let cosmos ← expectName .manifestUniverse
  withWord
  let entity ← expectName .manifestEntity
  return .manifest cosmos entity

/-- Reads a flow, from its word on. -/
def flowForm : Cursor Instruction := do
  let _ ← advance
  let _ ← expectName .timeWord
  let direction ← expect (fun _ => true) .timeDirection
  return .flowTime (tokenText direction)

/-- Reads an observation, from its word on. -/
def observeForm : Cursor Instruction := do
  let _ ← advance
  let target ← expectName .observedName
  return .observe target

/-- The reader of the form that a token leads. -/
def form? (t : Token) : Option (Cursor Instruction) :=
  match t.kind with
  | .name "universe" => some cosmosForm
  | .name "entity" => some entityForm
  | .name "manifest" => some manifestForm
  | .name "flow" => some flowForm
  | .name "observe" => some observeForm
  | _ => none

/-- Reads a form, or passes over a token that leads none. -/
def formRound (found : List Instruction) : Cursor (Round (List Instruction)) := do
  match ← peek with
  | none => return .absent found
  | some t =>
    match form? t with
    | some form =>
      let instruction ← form
      return .more (found ++ [instruction])
    | none =>
      let _ ← advance
      return .more found

/-- Reads forms to the end of the tokens. -/
def forms : Cursor (List Instruction) :=
  loop formRound []

end Cursor

end QuantumScript
