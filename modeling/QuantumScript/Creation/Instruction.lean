import QuantumScript.Creation.Json
import QuantumScript.Version

/-!
# Creations

A creation file says what to bring about: universes and entities with properties, manifestations,
the flow of time and observations. It is lowered to a list of instructions, which is written as a
document.
-/

namespace QuantumScript

/-- The properties of a universe or entity, in ascending order of their names. -/
abbrev Properties := List (String × Json)

/-- Properties with a value put under a name, over any value that stood there. -/
def Properties.put (name : String) (value : Json) : Properties → Properties
  | [] => [(name, value)]
  | (other, old) :: rest =>
    if name < other then (name, value) :: (other, old) :: rest
    else if name = other then (name, value) :: rest
    else (other, old) :: Properties.put name value rest

/-- A step of a creation. -/
inductive Instruction
  /-- Make a universe with properties. -/
  | cosmos (name : String) (properties : Properties)
  /-- Make an entity with properties. -/
  | entity (name : String) (properties : Properties)
  /-- Bring an entity into a universe. -/
  | manifest (cosmos entity : String)
  /-- Let time flow in a direction. -/
  | flowTime (direction : String)
  /-- Observe something. -/
  | observe (target : String)

namespace Instruction

/-- A tag with its content, as a document. -/
def tagged (tag : String) (content : Json) : Json :=
  .object [("t", .text tag), ("v", content)]

/-- An instruction as a document. -/
def toJson : Instruction → Json
  | cosmos name properties => tagged "UNIVERSE" (.array [.text name, .object properties])
  | entity name properties => tagged "ENTITY" (.array [.text name, .object properties])
  | manifest place guest => tagged "MANIFEST" (.array [.text place, .text guest])
  | flowTime direction => tagged "FLOW_TIME" (.text direction)
  | observe target => tagged "OBSERVE" (.text target)

end Instruction

/-- The instructions of a creation file. -/
structure Creation where
  /-- The version of the language. -/
  version : String
  /-- The name of the file. -/
  source : String
  /-- Its instructions, in order. -/
  instructions : List Instruction

namespace Creation

/-- A creation as a document. -/
def toJson (creation : Creation) : Json :=
  .object
    [("version", .text creation.version), ("source", .text creation.source),
     ("instructions", .array (creation.instructions.map Instruction.toJson))]

/-- The text of a creation. -/
def text (creation : Creation) : String :=
  creation.toJson.render 0

end Creation

end QuantumScript
