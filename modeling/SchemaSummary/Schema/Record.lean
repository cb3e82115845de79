import SchemaSummary.Schema.Descriptor
import SchemaSummary.Wire.Record

/-! # Descriptors as records

  How descriptors are laid out in the fields of a message, in both directions: `toRecord`
  writes the fields ascending by number, `ofRecord` reads them in any order and passes over
  all others.
-/

namespace SchemaSummary

open Wire

/-! ## Numbers -/

/-- A signed number is written as a varint of sixty-four bits with its sign extended. -/
def Int32.toVarint (n : Int32) : UInt64 := n.toInt64.toUInt64

/-- A signed number is read from the low thirty-two bits of a varint. -/
def Int32.ofVarint (v : UInt64) : Int32 := v.toUInt32.toInt32

/-- A signed number is read as it was written. -/
theorem Int32.ofVarint_toVarint (n : Int32) : Int32.ofVarint (Int32.toVarint n) = n := by
  apply Int32.toBitVec_inj.mp
  ext i hi
  simp [Int32.ofVarint, Int32.toVarint, BitVec.getLsbD_signExtend, hi]
  intro _
  omega

/-! ## Fields, methods and services -/

/-- The fields of a field description. -/
def FieldDescriptor.toRecord (f : FieldDescriptor) : Record :=
  textField 1 f.name ++ varintField 3 (f.number.map Int32.toVarint)

/-- The field description in the fields of a message. -/
def FieldDescriptor.ofRecord (r : Record) : FieldDescriptor where
  name := r.text? 1
  number := (r.varint? 3).map Int32.ofVarint

/-- The fields of a method description. -/
def MethodDescriptor.toRecord (m : MethodDescriptor) : Record :=
  textField 1 m.name ++ textField 2 m.inputType ++ textField 3 m.outputType

/-- The method description in the fields of a message. -/
def MethodDescriptor.ofRecord (r : Record) : MethodDescriptor where
  name := r.text? 1
  inputType := r.text? 2
  outputType := r.text? 3

/-- The fields of a service description. -/
def ServiceDescriptor.toRecord (s : ServiceDescriptor) : Record :=
  textField 1 s.name ++ messageFields 2 (s.methods.map MethodDescriptor.toRecord)

/-- The service description in the fields of a message. -/
def ServiceDescriptor.ofRecord (r : Record) : ServiceDescriptor where
  name := r.text? 1
  methods := (r.messages 2).map MethodDescriptor.ofRecord

/-! ## Messages -/

mutual

/-- The fields of a message description. -/
def MessageDescriptor.toRecord : MessageDescriptor → Record
  | ⟨name, fields, nested⟩ =>
    textField 1 name ++ messageFields 2 (fields.map FieldDescriptor.toRecord) ++
      MessageDescriptor.nestedFields nested

/-- The field that holds the nested message descriptions. -/
def MessageDescriptor.nestedFields : List MessageDescriptor → Record
  | [] => []
  | m :: ms => (3, .message m.toRecord) :: MessageDescriptor.nestedFields ms

end

mutual

/-- The message description in a value, together with those nested in it. -/
def MessageDescriptor.ofValue? : Value → Option MessageDescriptor
  | .message r =>
    some ⟨Record.text? 1 r, (Record.messages 2 r).map FieldDescriptor.ofRecord,
      MessageDescriptor.allOf 3 r⟩
  | .varint _ | .fixed64 _ | .fixed32 _ | .bytes _ | .text _ => none

/-- The message descriptions in one field of a message, together with those nested in them. -/
def MessageDescriptor.allOf (number : Nat) : List (Nat × Value) → List MessageDescriptor
  | [] => []
  | (n, value) :: rest =>
    match if n = number then MessageDescriptor.ofValue? value else none with
    | some m => m :: MessageDescriptor.allOf number rest
    | none => MessageDescriptor.allOf number rest

end

/-- The message description in the fields of a message. -/
def MessageDescriptor.ofRecord (r : Record) : MessageDescriptor where
  name := r.text? 1
  fields := (r.messages 2).map FieldDescriptor.ofRecord
  nested := MessageDescriptor.allOf 3 r

/-! ## Files -/

/-- The fields of the file-level options. -/
def FileOptions.toRecord (o : FileOptions) : Record := textField 11 o.goPackage

/-- The file-level options in the fields of a message. -/
def FileOptions.ofRecord (r : Record) : FileOptions where
  goPackage := r.text? 11

/-- The fields of a file description. -/
def FileDescriptor.toRecord (f : FileDescriptor) : Record :=
  textField 1 f.name ++ textField 2 f.package ++
    messageFields 4 (f.messages.map MessageDescriptor.toRecord) ++
    messageFields 6 (f.services.map ServiceDescriptor.toRecord) ++
    messageField 8 (f.options.map FileOptions.toRecord)

/-- The file description in the fields of a message. -/
def FileDescriptor.ofRecord (r : Record) : FileDescriptor where
  name := r.text? 1
  package := r.text? 2
  messages := MessageDescriptor.allOf 4 r
  services := (r.messages 6).map ServiceDescriptor.ofRecord
  options := (r.message? 8).map FileOptions.ofRecord

end SchemaSummary
