import SchemaSummary.Generation.Encoder
import SchemaSummary.Proofs.Yaml.Nodes

/-! # Documents are read back

  Every document can be written as YAML, and its text is read as that document: names are
  arbitrary texts, numbers have thirty-two bits, and all lists may be empty.
-/

namespace SchemaSummary

open Yaml

/-! ## Nodes of documents -/

namespace Yaml.Node

theorem int32?_ofInt (n : Int32) : int32? (.ofInt n.toInt) = some n := by
  have hlow : Int32.minValue.toInt ≤ n.toInt := n.minValue_le_toInt
  have hhigh : n.toInt ≤ Int32.maxValue.toInt := n.toInt_le
  have hmin : Int32.minValue.toInt = -2147483648 := by decide
  have hmax : Int32.maxValue.toInt = 2147483647 := by decide
  -- Far more than thirty-two bits are read as an integer.
  have hread := integer?_toString (n := n.toInt) (by omega) (by omega)
  have hrange : (Int32.minValue.toInt ≤ n.toInt && n.toInt ≤ Int32.maxValue.toInt) = true := by
    rw [Bool.and_eq_true, decide_eq_true_iff, decide_eq_true_iff]
    exact ⟨hlow, hhigh⟩
  show Option.map Int32.ofInt (Option.filter _ (integer? (toString n.toInt).toList)) = some n
  rw [hread, Option.filter_some, if_pos hrange, Option.map_some, Int32.ofInt_toInt]

/-- A list is read as it was if each of its items is. -/
theorem items?_map {α : Type} {toNode : α → Node} {ofNode? : Node → Option α}
    (h : ∀ a, ofNode? (toNode a) = some a) (as : List α) :
    items? ofNode? (.list (as.map toNode)) = some as := by
  show (as.map toNode).mapM ofNode? = some as
  induction as with
  | nil => rfl
  | cons a as ih =>
    rw [List.map_cons, List.mapM_cons, h, ih]
    rfl

end Yaml.Node

/-! ## Writing -/

section Writable

open Yaml.Node Yaml.Scalar

theorem FieldRecord.writable_toNode (f : FieldRecord) :
    f.toNode.isRecord = true ∧ f.toNode.Writable := by
  refine ⟨rfl, List.cons_ne_nil _ _, ⟨"name", rfl, by decide⟩, writable_ofText f.name, ?_⟩
  exact ⟨⟨"number", rfl, by decide⟩, writable_ofInt f.number.toInt, trivial⟩

theorem MethodRecord.writable_toNode (m : MethodRecord) :
    m.toNode.isRecord = true ∧ m.toNode.Writable := by
  refine ⟨rfl, List.cons_ne_nil _ _, ⟨"name", rfl, by decide⟩, writable_ofText m.name, ?_⟩
  refine ⟨⟨"input_type", rfl, by decide⟩, writable_ofText m.inputType, ?_⟩
  exact ⟨⟨"output_type", rfl, by decide⟩, writable_ofText m.outputType, trivial⟩

/-- A list can be written if its items are records that can. -/
theorem writable_list_map {α : Type} {toNode : α → Node}
    (h : ∀ a, (toNode a).isRecord = true ∧ (toNode a).Writable) (as : List α) :
    (Node.list (as.map toNode)).Writable := by
  apply itemsWritable_of_forall
  intro item hitem
  obtain ⟨a, -, rfl⟩ := List.mem_map.mp hitem
  exact h a

theorem MessageRecord.writable_toNode (m : MessageRecord) :
    m.toNode.isRecord = true ∧ m.toNode.Writable := by
  have hfields := writable_list_map FieldRecord.writable_toNode m.fields
  refine ⟨rfl, List.cons_ne_nil _ _, ⟨"name", rfl, by decide⟩, writable_ofText m.name, ?_⟩
  exact ⟨⟨"fields", rfl, by decide⟩, hfields, trivial⟩

theorem ServiceRecord.writable_toNode (s : ServiceRecord) :
    s.toNode.isRecord = true ∧ s.toNode.Writable := by
  have hmethods := writable_list_map MethodRecord.writable_toNode s.methods
  refine ⟨rfl, List.cons_ne_nil _ _, ⟨"name", rfl, by decide⟩, writable_ofText s.name, ?_⟩
  exact ⟨⟨"methods", rfl, by decide⟩, hmethods, trivial⟩

theorem Document.writable_toNode (d : Document) : d.toNode.Writable := by
  have hmessages := writable_list_map MessageRecord.writable_toNode d.messages
  have hservices := writable_list_map ServiceRecord.writable_toNode d.services
  refine ⟨List.cons_ne_nil _ _, ⟨"messages", rfl, by decide⟩, hmessages, ?_⟩
  exact ⟨⟨"services", rfl, by decide⟩, hservices, trivial⟩

end Writable

/-! ## Reading -/

theorem FieldRecord.ofNode?_toNode (f : FieldRecord) : ofNode? f.toNode = some f := by
  have hname : f.toNode.value? "name" = some (.ofText f.name) := by
    simp [toNode, Node.value?, Key.isText]
  have hnumber : f.toNode.value? "number" = some (.ofInt f.number.toInt) := by
    simp [toNode, Node.value?, Key.isText]
  simp [ofNode?, hname, hnumber, Node.int32?_ofInt, Node.ofText, Node.text?, Scalar.ofText]

theorem MethodRecord.ofNode?_toNode (m : MethodRecord) : ofNode? m.toNode = some m := by
  have hname : m.toNode.value? "name" = some (.ofText m.name) := by
    simp [toNode, Node.value?, Key.isText]
  have hinput : m.toNode.value? "input_type" = some (.ofText m.inputType) := by
    simp [toNode, Node.value?, Key.isText]
  have houtput : m.toNode.value? "output_type" = some (.ofText m.outputType) := by
    simp [toNode, Node.value?, Key.isText]
  simp [ofNode?, hname, hinput, houtput, Node.ofText, Node.text?, Scalar.ofText]

theorem MessageRecord.ofNode?_toNode (m : MessageRecord) : ofNode? m.toNode = some m := by
  have hname : m.toNode.value? "name" = some (.ofText m.name) := by
    simp [toNode, Node.value?, Key.isText]
  have hfields : m.toNode.value? "fields" = some (.list (m.fields.map FieldRecord.toNode)) := by
    simp [toNode, Node.value?, Key.isText]
  have hitems := Node.items?_map FieldRecord.ofNode?_toNode m.fields
  simp [ofNode?, hname, hfields, hitems, Node.ofText, Node.text?, Scalar.ofText]

theorem ServiceRecord.ofNode?_toNode (s : ServiceRecord) : ofNode? s.toNode = some s := by
  have hname : s.toNode.value? "name" = some (.ofText s.name) := by
    simp [toNode, Node.value?, Key.isText]
  have hmethods : s.toNode.value? "methods" = some (.list (s.methods.map MethodRecord.toNode)) := by
    simp [toNode, Node.value?, Key.isText]
  have hitems := Node.items?_map MethodRecord.ofNode?_toNode s.methods
  simp [ofNode?, hname, hmethods, hitems, Node.ofText, Node.text?, Scalar.ofText]

theorem Document.ofNode?_toNode (d : Document) : ofNode? d.toNode = some d := by
  have hmessages : d.toNode.value? "messages" =
      some (.list (d.messages.map MessageRecord.toNode)) := by
    simp [toNode, Node.value?, Key.isText]
  have hservices : d.toNode.value? "services" =
      some (.list (d.services.map ServiceRecord.toNode)) := by
    simp [toNode, Node.value?, Key.isText]
  have hmessageItems := Node.items?_map MessageRecord.ofNode?_toNode d.messages
  have hserviceItems := Node.items?_map ServiceRecord.ofNode?_toNode d.services
  simp [ofNode?, hmessages, hservices, hmessageItems, hserviceItems]

/-- The text of a document is read as that document. -/
theorem Document.ofYaml?_toYaml (d : Document) : ofYaml? d.toYaml = some d := by
  obtain ⟨hne, hentries⟩ := d.writable_toNode
  have hparse : Node.parse? d.toNode.render = some d.toNode := Node.parse?_render hne hentries
  rw [ofYaml?, toYaml, hparse, Option.bind_some, ofNode?_toNode]

/-- **Encoding never fails and loses nothing**: whatever the file and the document, there is a
    text, and it is read as that document. -/
theorem yaml_round_trip (file : String) (d : Document) :
    ∃ text, Encoder.yaml.encode file d = .ok text ∧ Document.ofYaml? text = some d :=
  ⟨d.toYaml, rfl, d.ofYaml?_toYaml⟩

end SchemaSummary
