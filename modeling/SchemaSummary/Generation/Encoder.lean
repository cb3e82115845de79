import SchemaSummary.Document.Yaml
import SchemaSummary.Error

/-! # Encoders

  An encoder turns the document of a schema file into the contents of a generated file. The one
  in use writes YAML.
-/

namespace SchemaSummary

/-- A way of writing documents. -/
structure Encoder where
  /-- What is added to the output name. -/
  extension : String
  /-- The text of a document; the name of its schema file is there to be put into errors. -/
  encode : (file : String) → Document → Except Error String

/-- The encoder that writes YAML. -/
def Encoder.yaml : Encoder where
  extension := ".yaml"
  encode := fun _ document => .ok document.toYaml

/-- A file that was generated. -/
structure GeneratedFile where
  name : String
  content : String
  deriving Repr, BEq, DecidableEq, Inhabited

/-- The file for a document, named after the given output name. -/
def Encoder.file (encoder : Encoder) (source stem : String) (document : Document) :
    Except Error GeneratedFile := do
  let content ← encoder.encode source document
  .ok ⟨stem ++ encoder.extension, content⟩

end SchemaSummary
