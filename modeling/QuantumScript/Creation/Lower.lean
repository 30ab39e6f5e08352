import QuantumScript.Creation.Instruction
import QuantumScript.Token.Lexer
import QuantumScript.Token.Reading

/-!
# From tokens to instructions

Line ends carry no meaning in a creation file. Five words each start a form; a token that starts
none is passed over.
-/

namespace QuantumScript

namespace Creation

open Token Reading

/-- The text of a token: the value of a text or name, and else its characters. -/
def tokenText (t : Token) : String :=
  match t.kind with
  | .text value | .name value => value
  | _ => t.lexeme

/-- The value that a single token stands for. -/
def literal (t : Token) : Json :=
  match t.kind with
  | .number n =>
    if Number.isShortWhole n then .integer (Number.truncate n)
    else if n.isFinite then .real n
    else .null
  | .keyword .yes => .bool true
  | .keyword .no => .bool false
  | .keyword .null => .null
  | _ => .text (tokenText t)

/-- Whether tokens start with a property: a name and a colon. -/
def startsProperty : List Token → Bool
  | t :: u :: _ =>
    match t.kind with
    | .name _ => u.isSymbol .colon
    | _ => false
  | _ => false

/-- The values at the front of some tokens, up to a closing brace or the next property, and the
tokens left. Commas are passed over. -/
def splitValues : List Token → List Json × List Token
  | [] => ([], [])
  | t :: rest =>
    if t.isSymbol .closeBrace || startsProperty (t :: rest) then ([], t :: rest)
    else
      let (values, left) := splitValues rest
      (if t.isSymbol .comma then values else literal t :: values, left)

/-- The tokens after the values are no more than before. -/
theorem length_splitValues_le (ts : List Token) : (splitValues ts).2.length ≤ ts.length := by
  induction ts with
  | nil => simp [splitValues]
  | cons t rest ih =>
    unfold splitValues
    split
    · simp
    · simp only [List.length_cons]
      omega

/-- The value of a property with some values: nothing, the only one, or all of them. -/
def collect : List Json → Json
  | [] => .null
  | [value] => value
  | values => .array values

/-- Reads the properties of a universe up to the closing brace, after those of `found`. -/
def cosmosProperties (found : Properties) (ts : List Token) : Reading Properties ts :=
  match ts with
  | [] => .error ⟨.expected .universeEnd, []⟩
  | t :: after =>
    if t.isSymbol .closeBrace then .token found t after
    else
      (takeName .propertyName (t :: after)).andThen fun (key, _) rest _ =>
      (takeSymbol .colon .colonAfterProperty rest).andThen fun _ rest _ =>
      have := length_splitValues_le rest
      (cosmosProperties (Properties.put key (collect (splitValues rest).1) found)
        (splitValues rest).2).widen (length_splitValues_le rest)
termination_by ts.length
decreasing_by simp only [List.length_cons] at *; omega

/-- The tokens after a comma, if they start with one. -/
def skipComma : List Token → List Token
  | [] => []
  | t :: rest => if t.isSymbol .comma then rest else t :: rest

/-- Skipping a comma makes no list longer. -/
theorem length_skipComma_le (ts : List Token) : (skipComma ts).length ≤ ts.length := by
  unfold skipComma
  split
  · simp
  · split
    · simp
    · simp

/-- Reads the properties of an entity up to the closing brace, after those of `found`. -/
def entityProperties (found : Properties) (ts : List Token) : Reading Properties ts :=
  match ts with
  | [] => .error ⟨.expected .entityEnd, []⟩
  | t :: after =>
    if t.isSymbol .closeBrace then .token found t after
    else
      (takeName .propertyName (t :: after)).andThen fun (key, _) rest _ =>
      (takeSymbol .colon .colonAfterProperty rest).andThen fun _ rest _ =>
      (take (fun _ => true) .propertyValue rest).andThen fun value rest _ =>
      have := length_skipComma_le rest
      (entityProperties (Properties.put key (literal value) found) (skipComma rest)).widen
        (length_skipComma_le rest)
termination_by ts.length
decreasing_by simp only [List.length_cons] at *; omega

/-! ## Forms -/

/-- Reads what follows `universe`. -/
def cosmosForm (ts : List Token) : Reading Instruction ts :=
  (takeName .universeName ts).andThen fun (name, _) rest _ =>
  (takeSymbol .openBrace .universeStart rest).andThen fun _ rest _ =>
  (cosmosProperties [] rest).map fun properties => .cosmos name properties

/-- Reads what follows `entity`. -/
def entityForm (ts : List Token) : Reading Instruction ts :=
  (takeName .entityName ts).andThen fun (name, _) rest _ =>
  (takeSymbol .openBrace .entityStart rest).andThen fun _ rest _ =>
  (entityProperties [] rest).map fun properties => .entity name properties

/-- Whether a token is a given name. -/
def isWord (word : String) (t : Token) : Bool :=
  t.kind == .name word

/-- Reads what follows `manifest`. -/
def manifestForm (ts : List Token) : Reading Instruction ts :=
  (takeName .manifestUniverse ts).andThen fun (cosmos, _) rest _ =>
  (take (isWord "with") .withWord rest).andThen fun _ rest _ =>
  (takeName .manifestEntity rest).map fun (entity, _) => .manifest cosmos entity

/-- Reads what follows `flow`: any name, and the direction. -/
def flowForm (ts : List Token) : Reading Instruction ts :=
  (takeName .timeWord ts).andThen fun _ rest _ =>
  (take (fun _ => true) .timeDirection rest).map fun direction => .flowTime (tokenText direction)

/-- Reads what follows `observe`. -/
def observeForm (ts : List Token) : Reading Instruction ts :=
  (takeName .observedName ts).map fun (target, _) => .observe target

/-- The reader of the form that a token starts. -/
def form? (t : Token) : Option ((ts : List Token) → Reading Instruction ts) :=
  match t.kind with
  | .name "universe" => some cosmosForm
  | .name "entity" => some entityForm
  | .name "manifest" => some manifestForm
  | .name "flow" => some flowForm
  | .name "observe" => some observeForm
  | _ => none

/-- Reads forms to the end of the tokens, passing over tokens that start none. -/
def forms (ts : List Token) : Except Stuck (List Instruction) :=
  match ts with
  | [] => .ok []
  | t :: after =>
    match form? t with
    | none => forms after
    | some form =>
      match form after with
      | .error stuck => .error stuck
      | .ok ⟨instruction, rest, _⟩ => (forms rest).map fun others => instruction :: others
termination_by ts.length

end Creation

/-- The instructions of a creation file. -/
def lower (source : String) : Except Fault (List Instruction) := do
  let tokens ← tokenize source
  match Creation.forms (tokens.items.filter fun t => !t.isNewline) with
  | .ok instructions => .ok instructions
  | .error stuck => .error (stuck.fault tokens.ending)

/-- The creation that a file with a given name holds. -/
def Creation.ofSource (name source : String) : Except Fault Creation := do
  let instructions ← lower source
  return ⟨QuantumScript.version, name, instructions⟩

end QuantumScript
