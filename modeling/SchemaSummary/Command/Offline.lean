import SchemaSummary.Command.Arguments
import SchemaSummary.Command.Log
import SchemaSummary.Command.Outcome
import SchemaSummary.Disk.Access
import SchemaSummary.Disk.Path
import SchemaSummary.Plugin.Request

/-! # Runs on a descriptor set

  A run by hand reads a descriptor set, generates the files as a plugin would, and writes them
  below the output directory one after the other. The first file that cannot be written ends the
  run; those before it stay.

  A dry run only says what would be written. It refuses the same names.
-/

namespace SchemaSummary

/-- The path of a generated file. A name that may lead out of the output directory is refused. -/
def outputPath (directory name : String) : Except Error String :=
  if Path.escapes name.toList then .error (.pathTraversal name)
  else .ok (String.ofList (Path.join directory.toList name.toList))

section Delivery

variable {m : Type → Type} [Monad m] (access : FileAccess m)

/-- Writes a file and makes the directories above it. -/
def writeFile (path content : String) : m (Except Error Unit) := do
  let directory := String.ofList (Path.parent path.toList)
  match ← access.createDirectories directory with
  | .error fault => pure (.error (.directoryCreate directory fault))
  | .ok () =>
    match ← access.write path (Wire.utf8Bytes content) with
    | .error fault => pure (.error (.fileWrite path fault))
    | .ok () => pure (.ok ())

/-- What a run says about a file that it writes or, in a dry run, would write. -/
def OfflineOptions.notice (o : OfflineOptions) (path content : String) : String :=
  if o.dryRun then
    "Would write: " ++ path ++ "\n" ++
      if o.verbosity = 0 then "" else "---\n" ++ content ++ "---\n"
  else "Wrote " ++ path ++ "\n"

/-- Delivers generated files up to the first that fails. Gives what was said about the others,
    and the error. -/
def deliver (o : OfflineOptions) : List GeneratedFile → m (String × Option Error)
  | [] => pure ("", none)
  | file :: files => do
    match outputPath o.output file.name with
    | .error e => pure ("", some e)
    | .ok path =>
      match ← (if o.dryRun then pure (.ok ()) else writeFile access path file.content) with
      | .error e => pure ("", some e)
      | .ok () =>
        let (text, e) ← deliver o files
        pure (o.notice path file.content ++ text, e)

/-- A run on a descriptor set. -/
def runOffline (o : OfflineOptions) : m Outcome := do
  let log := logText o.verbosity
  match ← access.read o.descriptorSet with
  | .error fault =>
    pure (.failure "" (log [.started]) { error := .fileRead o.descriptorSet fault })
  | .ok bytes =>
    match DescriptorSet.decode bytes with
    | .error fault =>
      pure (.failure "" (log [.started])
        { attempt := some ("Failed to parse descriptor set: " ++ o.descriptorSet)
          error := .requestDecode fault })
    | .ok set =>
      let q := set.request o.files o.parameter
      let events := .started :: q.events
      match generate q with
      | .error e => pure (.failure "" (log events) { error := e })
      | .ok files =>
        match ← deliver access o files with
        | (text, some e) => pure (.failure text (log events) { error := e })
        | (text, none) =>
          pure (.success text
            (log (events ++ [.delivered files.length o.descriptorSet])))

end Delivery

end SchemaSummary
