import SchemaSummary.Error
import SchemaSummary.Plugin.Request

/-! # Selection

  Which schema files a request wants generated: those it names, each once, in the order of their
  descriptors. Where several descriptors have one name the first of them counts.
-/

namespace SchemaSummary

/-- The first descriptor of every name. -/
def firstDescriptors : List FileDescriptor → List FileDescriptor
  | [] => []
  | f :: fs => f :: (firstDescriptors fs).filter fun g => g.path != f.path

namespace Request

/-- Whether some descriptor has the given name. -/
def describes (q : Request) (name : String) : Bool := q.files.any fun f => f.path == name

/-- Whether the file of a descriptor is to be generated. -/
def wants (q : Request) (f : FileDescriptor) : Bool := q.filesToGenerate.contains f.path

/-- The descriptors of the files to generate; the first name without a descriptor is an
    error. -/
def select (q : Request) : Except Error (List FileDescriptor) :=
  match q.filesToGenerate.find? fun name => !q.describes name with
  | some name => .error (.missingDescriptor name)
  | none => .ok ((firstDescriptors q.files).filter q.wants)

end Request

end SchemaSummary
