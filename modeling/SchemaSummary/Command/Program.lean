/-! # The program

  The name and the version under which the program makes itself known.
-/

namespace SchemaSummary

/-- The name of the program. -/
def programName : String := "protoc-gen-yaml"

/-- The version of the program. -/
def version : String := "0.1.0"

/-- The line that makes the program known. -/
def banner : String := programName ++ " " ++ version

end SchemaSummary
