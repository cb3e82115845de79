import SchemaSummary.Schema.Record
import SchemaSummary.Wire.Reader
import SchemaSummary.Wire.Writer

/-! # Requests

  What a host asks of the plugin, and the descriptor set that takes its place when the tool is
  run by hand.
-/

namespace SchemaSummary

open Wire

/-- A request for the summaries of some schema files. -/
structure Request where
  /-- The names of the wanted files. -/
  filesToGenerate : List String := []
  /-- The parameter given to the plugin. -/
  parameter : Option String := none
  /-- The descriptors of the wanted files and of all files they import. -/
  files : List FileDescriptor := []
  deriving Repr, BEq, Inhabited

/-- The fields of a request. -/
def Request.toRecord (q : Request) : Record :=
  textFields 1 q.filesToGenerate ++ textField 2 q.parameter ++
    messageFields 15 (q.files.map FileDescriptor.toRecord)

/-- The request in the fields of a message. -/
def Request.ofRecord (r : Record) : Request where
  filesToGenerate := r.texts 1
  parameter := r.text? 2
  files := (r.messages 15).map FileDescriptor.ofRecord

/-- The bytes of a request. -/
def Request.encode (q : Request) : List UInt8 := q.toRecord.encode

/-- The request in the given bytes. -/
def Request.decode (bs : List UInt8) : Except DecodeError Request :=
  (Record.decode .request bs).map Request.ofRecord

/-- The schema files of a descriptor set. -/
structure DescriptorSet where
  files : List FileDescriptor := []
  deriving Repr, BEq, Inhabited

namespace DescriptorSet

/-- The fields of a descriptor set. -/
def toRecord (s : DescriptorSet) : Record :=
  messageFields 1 (s.files.map FileDescriptor.toRecord)

/-- The descriptor set in the fields of a message. -/
def ofRecord (r : Record) : DescriptorSet where
  files := (r.messages 1).map FileDescriptor.ofRecord

/-- The descriptor set in the given bytes. -/
def decode (bs : List UInt8) : Except DecodeError DescriptorSet :=
  (Record.decode .fileSet bs).map ofRecord

/-- The request for the files named, or for every file of the set if none is named. -/
def request (s : DescriptorSet) (names : List String) (parameter : Option String) : Request where
  filesToGenerate := if names.isEmpty then s.files.map FileDescriptor.path else names
  parameter := parameter
  files := s.files

end DescriptorSet

end SchemaSummary
