import SchemaSummary.Text.Split

/-! # Paths

  A path is a text whose parts have slashes between them. Empty parts and parts that are a
  single dot lead nowhere; the steps of a path are all other parts. A path that begins with a
  slash starts at the root.
-/

namespace SchemaSummary.Path

/-- Whether a path starts at the root. -/
def isAbsolute (path : List Char) : Bool := path.head? == some '/'

/-- Whether a part of a path leads somewhere. -/
def isStep (part : List Char) : Bool := !(part.isEmpty || part == ['.'])

/-- The parts of a path that lead somewhere. -/
def steps (path : List Char) : List (List Char) := (path.splitOn '/').filter isStep

/-- The step to the parent directory. -/
def upward : List Char := ['.', '.']

/-- What a path is made of. -/
inductive Component where
  /-- The root, in front of everything else. -/
  | root
  /-- The directory in which a path starts. -/
  | current
  /-- The parent directory. -/
  | parent
  /-- What has the given name. -/
  | normal (name : List Char)
  deriving Repr, BEq, DecidableEq, Inhabited

namespace Component

/-- The component for a part that leads somewhere. -/
def ofStep (part : List Char) : Component := if part = upward then .parent else .normal part

/-- Whether a component stays in a directory or leads to something in it. -/
def staysInside : Component → Bool
  | .current | .normal _ => true
  | .root | .parent => false

end Component

/-- The components of a path. Of the parts that lead nowhere only a dot at the very front is
    one. -/
def components (path : List Char) : List Component :=
  let below := (steps path).map Component.ofStep
  if isAbsolute path then .root :: below
  else if (path.splitOn '/').head? == some ['.'] then .current :: below
  else below

/-- Whether a path may lead to a place that is not below the directory where it starts. -/
def escapes (path : List Char) : Bool := (components path).any fun c => !c.staysInside

/-- A path that starts in the directory `dir`, unless it starts at the root. -/
def join (dir path : List Char) : List Char :=
  if isAbsolute path then path
  else if dir.isEmpty || dir.getLast? == some '/' then dir ++ path
  else dir ++ '/' :: path

/-- The list without the elements at its end that lead nowhere. -/
def dropIdle (parts : List (List Char)) : List (List Char) :=
  Text.dropEndWhile (fun part => !isStep part) parts

/-- The path without its last step. A dot at the very front stays. -/
def parent (path : List Char) : List Char :=
  match (dropIdle (path.splitOn '/')).dropLast with
  | [] => if isAbsolute path then ['/'] else []
  | first :: rest =>
    let kept := List.intercalate ['/'] (first :: dropIdle rest)
    if kept.isEmpty then ['/'] else kept

/-- A path and the paths above it, from the inside out, without the directory where it starts. A
    path has no more of them than characters, which bounds `count`. -/
def ancestorsUpTo : (count : Nat) → List Char → List (List Char)
  | 0, _ => []
  | count + 1, path =>
    if path.isEmpty || path == ['/'] then [] else path :: ancestorsUpTo count (parent path)

/-- A path and the paths above it, from the inside out, without the directory where it starts. -/
def ancestors (path : List Char) : List (List Char) := ancestorsUpTo path.length path

/-- Whether a path can lead to a directory only, because of the way it ends. -/
def endsInDirectory (path : List Char) : Bool :=
  match (path.splitOn '/').getLast? with
  | some part => !isStep part || part == upward
  | none => false

end SchemaSummary.Path
