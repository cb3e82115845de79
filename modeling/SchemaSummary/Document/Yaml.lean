import SchemaSummary.Document.Basic
import SchemaSummary.Yaml.Reader

/-! # Documents in YAML

  The YAML form of a document and its reading.

  Writing gives every record its keys in a fixed order. Reading takes them in any order, passes
  over keys that it does not know, and takes nothing at all for an empty list; a key that is
  missing, that occurs twice or that is no text makes the text unreadable.
-/

namespace SchemaSummary

open Yaml (Node)

/-! ## Writing -/

/-- A field as a node. -/
def FieldRecord.toNode (f : FieldRecord) : Node :=
  .record [("name", .ofText f.name), ("number", .ofInt f.number.toInt)]

/-- A message as a node. -/
def MessageRecord.toNode (m : MessageRecord) : Node :=
  .record [("name", .ofText m.name), ("fields", .list (m.fields.map FieldRecord.toNode))]

/-- A method as a node. -/
def MethodRecord.toNode (m : MethodRecord) : Node :=
  .record [("name", .ofText m.name), ("input_type", .ofText m.inputType),
    ("output_type", .ofText m.outputType)]

/-- A service as a node. -/
def ServiceRecord.toNode (s : ServiceRecord) : Node :=
  .record [("name", .ofText s.name), ("methods", .list (s.methods.map MethodRecord.toNode))]

/-- A document as a node. -/
def Document.toNode (d : Document) : Node :=
  .record [("messages", .list (d.messages.map MessageRecord.toNode)),
    ("services", .list (d.services.map ServiceRecord.toNode))]

/-- The YAML text of a document. -/
def Document.toYaml (d : Document) : String := d.toNode.render

/-! ## Reading -/

namespace Yaml.Node

/-- The value of a key that a record has exactly once, if all of its keys are texts. -/
def value? (key : String) : Node → Option Node
  | .record entries =>
    if entries.all fun entry => entry.1.isText then
      match entries.filter fun entry => entry.1 == .text key with
      | [(_, value)] => some value
      | _ => none
    else none
  | .scalar _ | .list _ => none

/-- The text of a scalar, whatever else it could be read as. -/
def text? : Node → Option String
  | .scalar s => some s.text
  | .list _ | .record _ => none

/-- The number of thirty-two bits that a scalar without quotes stands for. -/
def int32? : Node → Option Int32
  | .scalar s =>
    if s.quoted then none
    else
      ((integer? s.text.toList).filter fun n =>
        Int32.minValue.toInt ≤ n && n ≤ Int32.maxValue.toInt).map Int32.ofInt
  | .list _ | .record _ => none

/-- The items of a list, each read with `item?`. Nothing at all is the empty list, but a word for
    null is not. -/
def items? {α : Type} (item? : Node → Option α) : Node → Option (List α)
  | .list items => items.mapM item?
  | .scalar s => if !s.quoted && s.text.isEmpty then some [] else none
  | .record _ => none

end Yaml.Node

/-- The field in a node. -/
def FieldRecord.ofNode? (node : Node) : Option FieldRecord := do
  let name ← (← node.value? "name").text?
  let number ← (← node.value? "number").int32?
  some { name, number }

/-- The message in a node. -/
def MessageRecord.ofNode? (node : Node) : Option MessageRecord := do
  let name ← (← node.value? "name").text?
  let fields ← (← node.value? "fields").items? FieldRecord.ofNode?
  some { name, fields }

/-- The method in a node. -/
def MethodRecord.ofNode? (node : Node) : Option MethodRecord := do
  let name ← (← node.value? "name").text?
  let inputType ← (← node.value? "input_type").text?
  let outputType ← (← node.value? "output_type").text?
  some { name, inputType, outputType }

/-- The service in a node. -/
def ServiceRecord.ofNode? (node : Node) : Option ServiceRecord := do
  let name ← (← node.value? "name").text?
  let methods ← (← node.value? "methods").items? MethodRecord.ofNode?
  some { name, methods }

/-- The document in a node. -/
def Document.ofNode? (node : Node) : Option Document := do
  let messages ← (← node.value? "messages").items? MessageRecord.ofNode?
  let services ← (← node.value? "services").items? ServiceRecord.ofNode?
  some { messages, services }

/-- The document in a YAML text. -/
def Document.ofYaml? (text : String) : Option Document :=
  (Node.parse? text).bind Document.ofNode?

end SchemaSummary
