/-! # Documents

  What a summary of one schema file says: its messages with their fields, and its services
  with their methods. All names are qualified; nesting is gone.
-/

namespace SchemaSummary

/-- A field of a message, by its simple name. -/
structure FieldRecord where
  name : String
  number : Int32
  deriving Repr, BEq, DecidableEq, Inhabited

/-- A message by its qualified name, with its fields ascending by number. -/
structure MessageRecord where
  name : String
  fields : List FieldRecord
  deriving Repr, BEq, DecidableEq, Inhabited

/-- A method by its qualified name, with the qualified names of its types. -/
structure MethodRecord where
  name : String
  inputType : String
  outputType : String
  deriving Repr, BEq, DecidableEq, Inhabited

/-- A service by its qualified name. -/
structure ServiceRecord where
  name : String
  methods : List MethodRecord
  deriving Repr, BEq, DecidableEq, Inhabited

/-- The summary of one schema file. -/
structure Document where
  messages : List MessageRecord
  services : List ServiceRecord
  deriving Repr, BEq, DecidableEq, Inhabited

/-- Whether a document has neither messages nor services. -/
def Document.isEmpty (d : Document) : Bool := d.messages.isEmpty && d.services.isEmpty

end SchemaSummary
