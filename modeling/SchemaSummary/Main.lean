import SchemaSummary.Command.Run

/-! # The program on the machine

  The command line: arguments, standard streams and files of the machine it runs on.
-/

namespace SchemaSummary

/-- The fault with a number and a description of the machine's own. Some operations negate the
    number. -/
def DiskFault.ofCode (code : UInt32) (description : String) : DiskFault :=
  match code.toInt32.toInt.natAbs with
  | 2 => .notFound
  | 17 => .exists
  | 20 => .notDirectory
  | 21 => .isDirectory
  | 36 => .nameTooLong
  | n => .other (description ++ " (os error " ++ toString n ++ ")")

/-- The fault behind an error of the machine. -/
def DiskFault.ofError : IO.Error → DiskFault
  | .noFileOrDirectory _ code description => .ofCode code description
  | .alreadyExists _ code description | .invalidArgument _ code description
  | .permissionDenied _ code description | .resourceExhausted _ code description
  | .inappropriateType _ code description | .noSuchThing _ code description =>
    .ofCode code description
  | .otherError code description | .resourceBusy code description
  | .hardwareFault code description | .unsatisfiedConstraints code description
  | .illegalOperation code description => .ofCode code description
  | e => .other (toString e)

/-- An operation on the machine's disk, with its fault if it fails. -/
def withFault {α : Type} (operation : IO α) : IO (Except DiskFault α) := do
  match ← operation.toBaseIO with
  | .ok a => pure (.ok a)
  | .error e => pure (.error (.ofError e))

/-- Whether the machine has a directory at a path. -/
def machineHasDirectory (path : String) : IO Bool := do
  match ← (IO.FS.realPath path).toBaseIO with
  | .ok place => place.isDir
  | .error _ => pure false

/-- Access to the files of the machine. -/
def machineAccess : FileAccess IO where
  read path := withFault do
    let bytes ← IO.FS.readBinFile path
    pure bytes.data.toList
  write path content := withFault (IO.FS.writeBinFile path ⟨content.toArray⟩)
  makeDirectory path := withFault (IO.FS.createDir path)
  isDirectory := machineHasDirectory

/-- Everything on standard input. -/
def machineInput : IO (List UInt8) := do
  let bytes ← (← IO.getStdin).readBinToEnd
  pure bytes.data.toList

end SchemaSummary

open SchemaSummary in
/-- Runs the program. -/
def main (arguments : List String) : IO UInt32 := do
  let outcome ← run machineAccess machineInput (.ofArguments arguments)
  let out ← IO.getStdout
  out.write ⟨outcome.stdout.toArray⟩
  out.flush
  (← IO.getStderr).putStr outcome.stderr
  pure outcome.exitCode.toUInt32
