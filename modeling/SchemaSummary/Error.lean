import SchemaSummary.Disk.Fault
import SchemaSummary.Wire.Fault

/-! # Errors

  Everything that can end a run. A run has no partial result: either all files are generated or
  one error is reported.
-/

namespace SchemaSummary

/-- Why an entry of the plugin parameter is refused. -/
inductive ParameterFault where
  /-- The key means nothing. -/
  | unknown
  /-- The value is not a path mode. -/
  | pathMode
  /-- The value is not a truth value. -/
  | truthValue
  /-- A module was given although output names do not depend on import paths. -/
  | moduleClash
  /-- Another reason, in its own words. -/
  | other (description : String)
  deriving Repr, BEq, DecidableEq, Inhabited

/-- The wording of a refusal. -/
def ParameterFault.message : ParameterFault → String
  | .unknown => "unknown parameter"
  | .pathMode => "expected 'import' or 'source_relative'"
  | .truthValue => "expected 'true' or 'false'"
  | .moduleClash => "cannot use module= with paths=source_relative"
  | .other description => description

/-- What ends a run. -/
inductive Error where
  /-- The encoder refuses the document of a schema file. -/
  | serialize (file description : String)
  /-- A file is wanted that has no descriptor. -/
  | missingDescriptor (name : String)
  /-- An entry of the plugin parameter is refused. -/
  | invalidParameter (entry : String) (fault : ParameterFault)
  /-- An output name does not lie in the module. -/
  | outsideModule (name moduleName : String)
  /-- An output name leads out of the output directory. -/
  | pathTraversal (path : String)
  /-- The input is not a message of the expected kind. -/
  | requestDecode (fault : Wire.DecodeError)
  /-- A file cannot be read. -/
  | fileRead (path : String) (fault : DiskFault)
  /-- A file cannot be written. -/
  | fileWrite (path : String) (fault : DiskFault)
  /-- A directory cannot be made. -/
  | directoryCreate (path : String) (fault : DiskFault)
  deriving Repr, BEq, DecidableEq, Inhabited

namespace Error

/-- The wording of an error. -/
def message : Error → String
  | .serialize file description =>
    "failed to serialize YAML for '" ++ file ++ "': " ++ description
  | .missingDescriptor name => "no descriptor for generated file: " ++ name
  | .invalidParameter entry fault =>
    "invalid plugin parameter '" ++ entry ++ "': " ++ fault.message
  | .outsideModule name moduleName =>
    "generated file '" ++ name ++ "' does not have expected prefix '" ++ moduleName ++ "'"
  | .pathTraversal path =>
    "path traversal detected: '" ++ path ++ "' would escape output directory"
  | .requestDecode fault => "failed to decode descriptor input: " ++ fault.message
  | .fileRead path fault => "failed to read file '" ++ path ++ "': " ++ fault.message
  | .fileWrite path fault => "failed to write file '" ++ path ++ "': " ++ fault.message
  | .directoryCreate path fault =>
    "failed to create directory '" ++ path ++ "': " ++ fault.message

/-- The wording of what lies behind an error, if it has a cause of its own. -/
def source? : Error → Option String
  | .serialize _ description => some description
  | .requestDecode fault => some fault.message
  | .fileRead _ fault | .fileWrite _ fault | .directoryCreate _ fault => some fault.message
  | .missingDescriptor _ | .invalidParameter _ _ | .outsideModule _ _ | .pathTraversal _ => none

/-- Whether the request is to blame rather than what it meets with. -/
def isRequestError : Error → Bool
  | .missingDescriptor _ | .invalidParameter _ _ | .outsideModule _ _ | .requestDecode _ => true
  | .serialize _ _ | .pathTraversal _ | .fileRead _ _ | .fileWrite _ _
  | .directoryCreate _ _ => false

end Error

end SchemaSummary
