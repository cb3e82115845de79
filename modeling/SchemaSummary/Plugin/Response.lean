import SchemaSummary.Wire.Reader
import SchemaSummary.Wire.Writer

/-! # Responses

  What the plugin answers: either the generated files or the text of an error. Both kinds of
  answer list the features of the schema language that the plugin can deal with.
-/

namespace SchemaSummary

open Wire

/-- A generated file as it is handed to the host. -/
structure ResponseFile where
  name : Option String := none
  /-- A mark in an existing file at which the content is to be inserted. -/
  insertionPoint : Option String := none
  content : Option String := none
  deriving Repr, BEq, DecidableEq, Inhabited

/-- The plugin's answer to a request. -/
structure Response where
  error : Option String := none
  supportedFeatures : Option UInt64 := none
  files : List ResponseFile := []
  deriving Repr, BEq, DecidableEq, Inhabited

/-- The feature that fields may be marked optional. -/
def optionalFields : UInt64 := 1

/-- The fields of a generated file. -/
def ResponseFile.toRecord (f : ResponseFile) : Record :=
  textField 1 f.name ++ textField 2 f.insertionPoint ++ textField 15 f.content

/-- The generated file in the fields of a message. -/
def ResponseFile.ofRecord (r : Record) : ResponseFile where
  name := r.text? 1
  insertionPoint := r.text? 2
  content := r.text? 15

/-- The fields of a response. -/
def Response.toRecord (a : Response) : Record :=
  textField 1 a.error ++ varintField 2 a.supportedFeatures ++
    messageFields 15 (a.files.map ResponseFile.toRecord)

/-- The response in the fields of a message. -/
def Response.ofRecord (r : Record) : Response where
  error := r.text? 1
  supportedFeatures := r.varint? 2
  files := (r.messages 15).map ResponseFile.ofRecord

/-- The bytes of a response. -/
def Response.encode (a : Response) : List UInt8 := a.toRecord.encode

/-- The response in the given bytes. -/
def Response.decode (bs : List UInt8) : Except DecodeError Response :=
  (Record.decode .response bs).map Response.ofRecord

end SchemaSummary
