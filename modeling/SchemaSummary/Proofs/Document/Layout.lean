import SchemaSummary.Generation.Encoder
import SchemaSummary.Proofs.Yaml.Identifiers

/-! # The layout of documents

  The text of a document line by line. Every text in the document stands behind its key, and what
  is written there depends on that text and on the column of the key alone. The names of a schema
  stand there as they are, apart from nine reserved words.
-/

namespace SchemaSummary

open Yaml

/-! ## Lines of nodes -/

namespace Yaml

/-- What is written behind the key of a scalar in a record at `column`, up to the end of the last
    line that belongs to it. -/
def Scalar.behindKey (column : Nat) (s : Scalar) : List Char :=
  unlines (Node.scalarLines 0 [] (column + Node.indentation) s.pieces)

/-- What is written behind the key of a text in a record at `column`. -/
def behindKey (column : Nat) (v : String) : String :=
  String.ofList ((Scalar.ofText v).behindKey column)

namespace Node

/-- What a scalar begins with stands on its first line, behind the indentation. -/
theorem unlines_scalarLines (column : Nat) (start : List Char) (next : Nat) (ps : List Piece) :
    unlines (scalarLines column start next ps) =
      List.replicate column ' ' ++ start ++ unlines (scalarLines 0 [] next ps) := by
  cases ps with
  | nil => simp [scalarLines, Line.text, Line.ofBody]
  | cons p ps => simp [scalarLines, Line.text]

theorem unlines_valueLines_scalar (column : Nat) (key : List Char) (s : Scalar) :
    unlines (valueLines column key (.scalar s)) =
      List.replicate column ' ' ++ key ++ ' ' :: s.behindKey column := by
  rw [valueLines, unlines_scalarLines, Scalar.behindKey]
  simp

/-- The text of a record as an item of a list at `column`. -/
def itemText (column : Nat) (item : Node) : List Char :=
  unlines (dashed column (blockLines (column + indentation) item))

theorem unlines_itemLines (column : Nat) (items : List Node) :
    unlines (itemLines column items) = items.flatMap (itemText column) := by
  induction items with
  | nil => rfl
  | cons item items ih => rw [itemLines, unlines_append, ih, List.flatMap_cons, itemText]

/-- The dash of an item and the space behind it take the place of some of the indentation. -/
theorem unlines_dashed (column : Nat) (body : List Char) (stop : Option Char) (ls : List Line) :
    unlines (dashed column (⟨column + indentation, body, stop⟩ :: ls)) =
      List.replicate column ' ' ++ '-' :: ' ' :: body ++ stop.toList ++ unlines ls := by
  have hgap : indentation - 1 = 1 := rfl
  simp [dashed, Line.text, hgap]

/-- A record as an item begins with a dash and its first key. -/
theorem itemText_record (column : Nat) (key : Key) (s : Scalar) (entries : List (Key × Node)) :
    itemText column (.record ((key, .scalar s) :: entries)) =
      List.replicate column ' ' ++ '-' :: ' ' :: key.toList ++ ':' :: ' ' ::
        s.behindKey (column + indentation) ++
          unlines (entryLines (column + indentation) entries) := by
  unfold itemText Scalar.behindKey
  rw [blockLines, entryLines, valueLines]
  cases s.pieces with
  | nil => simp [scalarLines, Line.ofBody, unlines_dashed, Line.text]
  | cons p ps =>
    simp [scalarLines, unlines_dashed, unlines_append, Line.text]

/-- An entry with a scalar stands in front of the other entries. -/
theorem unlines_entryLines_scalar (column : Nat) (key : Key) (s : Scalar)
    (entries : List (Key × Node)) :
    unlines (entryLines column ((key, .scalar s) :: entries)) =
      List.replicate column ' ' ++ key.toList ++ ':' :: ' ' :: s.behindKey column ++
        unlines (entryLines column entries) := by
  rw [entryLines, unlines_append, unlines_valueLines_scalar]
  simp

end Node

/-- Behind a number the line ends. -/
theorem Scalar.behindKey_ofInt (column : Nat) (n : Int) :
    (Scalar.ofInt n).behindKey column = (toString n).toList ++ ['\n'] := by
  simp [behindKey, pieces, style, piecesIn, ofInt, Node.scalarLines, Line.text]

end Yaml

/-! ## Layout -/

section Layout

variable (write : Nat → String → String)

/-- The text of a list: its key, and its items on the lines below it if there are any. -/
def listLayout (key : String) : List String → String
  | [] => key ++ ": []\n"
  | item :: items => key ++ ":\n" ++ String.join (item :: items)

/-- The lines of a field. -/
def FieldRecord.layout (f : FieldRecord) : String :=
  "  - name: " ++ write 4 f.name ++ "    number: " ++ toString f.number.toInt ++ "\n"

/-- The lines of a message and of its fields. -/
def MessageRecord.layout (m : MessageRecord) : String :=
  "- name: " ++ write 2 m.name ++
    "  " ++ listLayout "fields" (m.fields.map (FieldRecord.layout write))

/-- The lines of a method. -/
def MethodRecord.layout (m : MethodRecord) : String :=
  "  - name: " ++ write 4 m.name ++ "    input_type: " ++ write 4 m.inputType ++
    "    output_type: " ++ write 4 m.outputType

/-- The lines of a service and of its methods. -/
def ServiceRecord.layout (s : ServiceRecord) : String :=
  "- name: " ++ write 2 s.name ++
    "  " ++ listLayout "methods" (s.methods.map (MethodRecord.layout write))

/-- The text of a document in which `write column v` stands behind the key of every text `v` in a
    record at `column`. -/
def Document.layout (d : Document) : String :=
  listLayout "messages" (d.messages.map (MessageRecord.layout write)) ++
    listLayout "services" (d.services.map (ServiceRecord.layout write))

end Layout

/-! ## The text of a document -/

namespace Yaml.Node

/-- A list behind its key has the layout of a list if its items have theirs. -/
theorem unlines_valueLines_map {α : Type} {toNode : α → Node} {layout : α → String} {column : Nat}
    (h : ∀ a, itemText column (toNode a) = (layout a).toList) (key : String) (as : List α) :
    unlines (valueLines column (key.toList ++ [':']) (.list (as.map toNode))) =
      List.replicate column ' ' ++ (listLayout key (as.map layout)).toList := by
  cases as with
  | nil => simp [valueLines, listLayout, Line.text, Line.ofBody]
  | cons a as =>
    have hitems : unlines (itemLines column ((a :: as).map toNode)) =
        (String.join ((a :: as).map layout)).toList := by
      rw [unlines_itemLines, String.toList_join, List.flatMap_map, List.flatMap_map]
      simp only [h]
    have hlines : valueLines column (key.toList ++ [':']) (.list ((a :: as).map toNode)) =
        .ofBody column (key.toList ++ [':']) :: itemLines column ((a :: as).map toNode) := by
      simp [valueLines, itemLines]
    rw [hlines, unlines_cons, hitems]
    simp [listLayout, Line.text, Line.ofBody]

end Yaml.Node

/-- A record with a name and a list, as messages and services have them. -/
theorem Yaml.Node.itemText_named {α : Type} {toNode : α → Node} {layout : α → String}
    (h : ∀ a, Node.itemText 2 (toNode a) = (layout a).toList) (name key : String) (as : List α) :
    Node.itemText 0 (.record [("name", .ofText name), (key, .list (as.map toNode))]) =
      ("- name: " ++ behindKey 2 name ++ "  " ++ listLayout key (as.map layout)).toList := by
  have hlist := Node.unlines_valueLines_map h key as
  rw [Node.ofText, Node.itemText_record, Node.entryLines, Node.entryLines, List.append_nil]
  show _ ++ _ ++ unlines (Node.valueLines 2 (key.toList ++ [':']) _) = _
  rw [hlist]
  simp [behindKey, Key.toList, Node.indentation]

theorem FieldRecord.itemText_toNode (f : FieldRecord) :
    Node.itemText 2 f.toNode = (f.layout behindKey).toList := by
  rw [toNode, Node.ofText, Node.ofInt, Node.itemText_record, Node.unlines_entryLines_scalar,
    Scalar.behindKey_ofInt, layout]
  simp [Node.entryLines, Node.indentation, behindKey, Key.toList]

theorem MethodRecord.itemText_toNode (m : MethodRecord) :
    Node.itemText 2 m.toNode = (m.layout behindKey).toList := by
  simp only [toNode, Node.ofText]
  rw [Node.itemText_record, Node.unlines_entryLines_scalar, Node.unlines_entryLines_scalar, layout]
  simp [Node.entryLines, Node.indentation, behindKey, Key.toList]

theorem MessageRecord.itemText_toNode (m : MessageRecord) :
    Node.itemText 0 m.toNode = (m.layout behindKey).toList :=
  Node.itemText_named FieldRecord.itemText_toNode m.name "fields" m.fields

theorem ServiceRecord.itemText_toNode (s : ServiceRecord) :
    Node.itemText 0 s.toNode = (s.layout behindKey).toList :=
  Node.itemText_named MethodRecord.itemText_toNode s.name "methods" s.methods

/-- The text of a document has the layout of documents. -/
theorem Document.toYaml_eq_layout (d : Document) : d.toYaml = d.layout behindKey := by
  have hmessages :=
    Node.unlines_valueLines_map MessageRecord.itemText_toNode "messages" d.messages
  have hservices :=
    Node.unlines_valueLines_map ServiceRecord.itemText_toNode "services" d.services
  have hlines : unlines (d.toNode.blockLines 0) = (d.layout behindKey).toList := by
    rw [toNode, Node.blockLines, Node.entryLines, Node.entryLines, Node.entryLines,
      List.append_nil, unlines_append, layout, String.toList_append]
    show unlines (Node.valueLines 0 ("messages".toList ++ [':']) _) ++
      unlines (Node.valueLines 0 ("services".toList ++ [':']) _) = _
    rw [hmessages, hservices]
    rfl
  rw [toYaml, Node.render, hlines, String.ofList_toList]

/-! ## Names of a schema -/

/-- **Names of a schema** stand in documents as they are, whether they are those of messages,
    fields, services or methods, or of the types of methods. Only the nine reserved words get
    quotes. -/
theorem names_verbatim (file : String) (d : Document) :
    Encoder.yaml.encode file d = .ok (d.layout behindKey) ∧
      ∀ (column : Nat) (v : String), Dotted v.toList →
        behindKey column v = if v ∈ reservedWords then "'" ++ v ++ "'\n" else v ++ "\n" := by
  refine ⟨congrArg Except.ok d.toYaml_eq_layout, ?_⟩
  intro column v hv
  have hline : (Scalar.ofText v).behindKey column =
      (if v ∈ reservedWords then '\x27' :: v.toList ++ ['\x27'] else v.toList) ++ ['\n'] := by
    rw [Scalar.behindKey, hv.pieces_ofText]
    simp [Node.scalarLines, Line.text]
  rw [behindKey, hline, ← String.toList_inj, String.toList_ofList]
  split
  · simp
  · simp

/-! ### A reserved word and a name like a number -/

/-- A document with both. -/
def nearMisses : Document where
  messages := [⟨"true", [⟨"inf", 1⟩]⟩]
  services := [⟨"acme.e5", []⟩]

/-- One gets quotes, and the other does not. -/
theorem names_verbatim_nearMisses :
    Dotted "true".toList ∧ Dotted "inf".toList ∧ Dotted "acme.e5".toList ∧
      Encoder.yaml.encode "near.proto" nearMisses =
        .ok ("messages:\n- name: 'true'\n  fields:\n  - name: inf\n    number: 1\n" ++
          "services:\n- name: acme.e5\n  methods: []\n") := by
  have htrue : Dotted "true".toList := .single (by decide)
  have hinf : Dotted "inf".toList := .single (by decide)
  have he5 : Dotted ("acme".toList ++ '.' :: "e5".toList) :=
    .cons (by decide) (.single (by decide))
  have hnames := names_verbatim "near.proto" nearMisses
  refine ⟨htrue, hinf, he5, ?_⟩
  rw [hnames.1]
  simp only [Document.layout, nearMisses, listLayout, List.map, MessageRecord.layout,
    FieldRecord.layout, ServiceRecord.layout, hnames.2 _ _ htrue, hnames.2 _ _ hinf,
    hnames.2 _ "acme.e5" he5]
  rfl

end SchemaSummary
