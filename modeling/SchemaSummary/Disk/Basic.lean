import SchemaSummary.Disk.Access
import SchemaSummary.Disk.Path

/-! # A disk

  A disk as a value: directories, files with their contents, and the working directory.

  A place is the list of names that leads to it from the root. Paths are followed step by step
  from the working directory or from the root, and every step but the last has to lead to a
  directory. There are no links.
-/

namespace SchemaSummary

/-- The names that lead to a file or directory from the root. -/
abbrev Place := List String

/-- What stands at a place. -/
inductive Entry where
  | directory
  | file (content : List UInt8)
  deriving Repr, BEq, DecidableEq, Inhabited

/-- A disk with its working directory. -/
structure Disk where
  workingDirectory : Place := []
  entries : List (Place × Entry) := []
  deriving Repr, Inhabited

namespace Disk

/-! ## Places -/

/-- What stands at a place; the root is a directory. -/
def lookup (d : Disk) (place : Place) : Option Entry :=
  if place = [] then some .directory else d.entries.lookup place

/-- The disk with something else at a place. -/
def put (d : Disk) (place : Place) (entry : Entry) : Disk :=
  { d with entries := (place, entry) :: d.entries.filter fun e => e.1 != place }

@[simp] theorem lookup_put_self (d : Disk) {place : Place} (entry : Entry) (h : place ≠ []) :
    (d.put place entry).lookup place = some entry := by
  simp [lookup, put, h]

/-- What stands at other places does not change. -/
theorem lookup_put_ne (d : Disk) {place other : Place} (entry : Entry) (h : other ≠ place) :
    (d.put place entry).lookup other = d.lookup other := by
  have hne : (other == place) = false := by simpa using h
  have hkeep (es : List (Place × Entry)) :
      (es.filter fun e => e.1 != place).lookup other = es.lookup other := by
    induction es with
    | nil => rfl
    | cons e es ih =>
      obtain ⟨p, x⟩ := e
      by_cases hp : p = place
      · subst hp
        simp [hne, ih, List.lookup_cons]
      · simp [hp, ih, List.lookup_cons]
  simp only [lookup, put, List.lookup_cons, hne, hkeep]

/-! ## Following paths -/

/-- How many bytes the name of a file or directory may have. -/
def maxNameLength : Nat := 255

/-- How many bytes a path may have. -/
def maxPathLength : Nat := 4095

/-- Refuses a path that no disk can have. -/
def checkPath (path : String) : Except DiskFault Unit :=
  -- A path with NUL is not even handed to the disk.
  if path.toList.contains '\x00' then .error .nul
  else if maxPathLength < path.utf8ByteSize then .error .nameTooLong
  else if path.isEmpty then .error .notFound
  else .ok ()

/-- The place to which a step leads, whether something is there or not. -/
def stepTo (place : Place) (step : String) : Except DiskFault Place :=
  if step = ".." then .ok place.dropLast
  else if maxNameLength < step.utf8ByteSize then .error .nameTooLong
  else .ok (place ++ [step])

/-- The directory to which steps lead from a directory. -/
def follow (d : Disk) (place : Place) : List String → Except DiskFault Place
  | [] => .ok place
  | step :: steps =>
    match stepTo place step with
    | .error fault => .error fault
    | .ok next =>
      match d.lookup next with
      | none => .error .notFound
      | some (.file _) => .error .notDirectory
      | some .directory => d.follow next steps

/-- The directory in which a path starts. -/
def start (d : Disk) (path : String) : Place :=
  if Path.isAbsolute path.toList then [] else d.workingDirectory

/-- The steps of a path. -/
def steps (path : String) : List String := (Path.steps path.toList).map String.ofList

/-- The place to which steps lead; the last one need not lead to anything. -/
def locate (d : Disk) (place : Place) (steps : List String) : Except DiskFault Place :=
  match steps.getLast? with
  | none => .ok place
  | some last =>
    match d.follow place steps.dropLast with
    | .error fault => .error fault
    | .ok directory => stepTo directory last

/-! ## Operations -/

/-- The contents of the file at a path. -/
def read (d : Disk) (path : String) : Except DiskFault (List UInt8) := do
  checkPath path
  let place ← d.locate (d.start path) (steps path)
  match d.lookup place with
  | none => .error .notFound
  | some .directory => .error .isDirectory
  | some (.file content) =>
    if Path.endsInDirectory path.toList then .error .notDirectory else .ok content

/-- Whether a directory is at a path. -/
def isDirectory (d : Disk) (path : String) : Bool :=
  (checkPath path).isOk && (d.follow (d.start path) (steps path)).isOk

/-- Makes a directory in one that is there already. -/
def makeDirectory (d : Disk) (path : String) : Except DiskFault Disk := do
  checkPath path
  let place ← d.locate (d.start path) (steps path)
  match d.lookup place with
  | some _ => .error .exists
  | none => .ok (d.put place .directory)

/-- Makes the file at a path have the given contents. -/
def write (d : Disk) (path : String) (content : List UInt8) : Except DiskFault Disk := do
  checkPath path
  let place ← d.locate (d.start path) (steps path)
  match d.lookup place with
  | some .directory => .error .isDirectory
  | found =>
    if Path.endsInDirectory path.toList then
      .error (if found.isSome then .notDirectory else .isDirectory)
    else .ok (d.put place (.file content))

/-- Carries out an operation that changes the disk; one that fails leaves it as it is. -/
def update (operation : Disk → Except DiskFault Disk) : StateM Disk (Except DiskFault Unit) :=
  fun d =>
    match operation d with
    | .ok changed => (.ok (), changed)
    | .error fault => (.error fault, d)

/-- Access to the files of a disk that is a value. -/
def access : FileAccess (StateM Disk) where
  read path := fun d => (d.read path, d)
  write path content := update fun d => d.write path content
  makeDirectory path := update fun d => d.makeDirectory path
  isDirectory path := fun d => (d.isDirectory path, d)

/-! ## Building and listing -/

/-- The disk with a file at a path, and with the directories above it. -/
def addFile (d : Disk) (path : String) (content : List UInt8) : Disk :=
  let parent := String.ofList (Path.parent path.toList)
  ((access.createDirectories parent *> access.write path content).run d).2

/-- The files below the working directory, by their names from there. -/
def files (d : Disk) : List (List String × List UInt8) :=
  d.entries.filterMap fun e =>
    match e.2 with
    | .file content =>
      if d.workingDirectory.isPrefixOf e.1 then
        some (e.1.drop d.workingDirectory.length, content)
      else none
    | .directory => none

end Disk

end SchemaSummary
