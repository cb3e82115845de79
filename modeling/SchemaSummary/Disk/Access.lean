import SchemaSummary.Disk.Fault
import SchemaSummary.Disk.Path

/-! # Access to files

  The operations on files that a run needs, over any kind of effect: a run can be carried out on
  the machine's own disk as well as on a disk that is a value.

  Directories are made one at a time; `createDirectories` makes all that are missing.
-/

namespace SchemaSummary

/-- The operations on files that a run needs. -/
structure FileAccess (m : Type → Type) where
  /-- The contents of the file at a path. -/
  read : (path : String) → m (Except DiskFault (List UInt8))
  /-- Makes the file at a path have the given contents. -/
  write : (path : String) → (content : List UInt8) → m (Except DiskFault Unit)
  /-- Makes a directory in one that is there already. -/
  makeDirectory : (path : String) → m (Except DiskFault Unit)
  /-- Whether a directory is at a path. -/
  isDirectory : (path : String) → m Bool

namespace FileAccess

variable {m : Type → Type} [Monad m] (access : FileAccess m)

/-- Makes a directory; one that is there already is fine. -/
def ensureDirectory (path : String) : m (Except DiskFault Unit) := do
  match ← access.makeDirectory path with
  | .ok () => pure (.ok ())
  | .error fault =>
    if ← access.isDirectory path then pure (.ok ()) else pure (.error fault)

/-- Makes a directory, given together with those above it from the inside out. Only if one above
    it is missing are they made first. -/
def ensureDirectories : List String → m (Except DiskFault Unit)
  | [] => pure (.ok ())
  | path :: above => do
    match ← access.ensureDirectory path with
    -- Any other fault would be met again, however many directories were made.
    | .error .notFound =>
      match ← ensureDirectories above with
      | .error fault => pure (.error fault)
      | .ok () => access.ensureDirectory path
    | result => pure result

/-- Makes the directory at a path and all that are missing above it. -/
def createDirectories (path : String) : m (Except DiskFault Unit) :=
  access.ensureDirectories ((Path.ancestors path.toList).map String.ofList)

end FileAccess

end SchemaSummary
