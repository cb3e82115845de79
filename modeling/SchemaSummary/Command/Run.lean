import SchemaSummary.Command.Offline
import SchemaSummary.Plugin.Exchange

/-! # Runs

  A run of the program from its arguments and its input to its outcome.
-/

namespace SchemaSummary

/-- A run as a plugin. An error of generation is part of the response and so no failure. -/
def runPlugin (verbosity : Nat) (input : List UInt8) : Outcome :=
  let log := logText verbosity
  let opening : List Event := [.started, .received input.length]
  match Request.decode input with
  | .error fault =>
    .failure "" (log opening)
      { attempt :=
          some "Failed to parse CodeGeneratorRequest; run protoc-gen-yaml as a protoc plugin"
        error := .requestDecode fault }
  | .ok q =>
    let closing : List Event :=
      match generate q with
      | .error e => [.refused e]
      | .ok _ => []
    { stdout := (respond q).encode, stderr := log (opening ++ q.events ++ closing) }

/-- What the program says of itself and of its options, in lines of up to a hundred characters.
    The first line is the description of the package. -/
def helpText : String :=
  "protoc plugin that writes a YAML summary of messages and services next to each schema\n\n" ++
    "Usage: " ++ programName ++ " [OPTIONS]\n\n" ++
    "Options:\n" ++
    "      --descriptor-set <FILE>  " ++
    "Read a FileDescriptorSet (from `protoc -o`) instead of a plugin\n" ++
    "                               request on stdin\n" ++
    "      --file <NAME>            " ++
    "Schema file to generate; repeat for several (default: every file in\n" ++
    "                               the set)\n" ++
    "      --param <PARAM>          " ++
    "Plugin parameter, as given before the colon in --yaml_out\n" ++
    "  -o, --output <OUTPUT>        " ++
    "Output directory for generated .yaml files [default: .]\n" ++
    "      --dry-run                " ++
    "Dry run - don't write files, just show what would be generated\n" ++
    "  -v, --verbose...             Verbosity level (-v, -vv, -vvv)\n" ++
    "  -h, --help                   Print help\n" ++
    "  -V, --version                Print version\n"

/-- What every usage error ends with; which argument it is about is left out. -/
def usageHint : String := "For more information, try '--help'.\n"

/-- The run that the command line asks for; the input is read only if it is needed. -/
def run {m : Type → Type} [Monad m] (access : FileAccess m) (input : m (List UInt8)) :
    Invocation → m Outcome
  | .usageError => pure { exitCode := 2, stderr := usageHint }
  | .help => pure (.success helpText "")
  | .version => pure (.success (banner ++ "\n") "")
  | .plugin verbosity => do
    let bytes ← input
    pure (runPlugin verbosity bytes)
  | .offline options => runOffline access options

end SchemaSummary
