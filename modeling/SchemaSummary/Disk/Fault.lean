/-! # Disk faults

  Why the disk refuses an operation.
-/

namespace SchemaSummary

/-- The reason for which an operation on a path fails. -/
inductive DiskFault where
  /-- Nothing is at the path, or its parent is missing. -/
  | notFound
  /-- Something is at the path already. -/
  | exists
  /-- A part of the path is a file where a directory is needed. -/
  | notDirectory
  /-- A directory is at the path where a file is needed. -/
  | isDirectory
  /-- The path or a part of it is too long. -/
  | nameTooLong
  /-- The path contains the character NUL. -/
  | nul
  /-- Another reason, in its own words. -/
  | other (description : String)
  deriving Repr, BEq, DecidableEq, Inhabited

/-- The wording of a fault. -/
def DiskFault.message : DiskFault → String
  | .notFound => "No such file or directory (os error 2)"
  | .exists => "File exists (os error 17)"
  | .notDirectory => "Not a directory (os error 20)"
  | .isDirectory => "Is a directory (os error 21)"
  | .nameTooLong => "File name too long (os error 36)"
  | .nul => "file name contained an unexpected NUL byte"
  | .other description => description

end SchemaSummary
