/-! # Arguments

  What the command line asks for.

  Without arguments the program serves as a plugin. With `--descriptor-set` it works by hand on
  a descriptor set, and only then the other options apply; `-v` is at home in both.

  Arguments are taken one after the other. The first that cannot be accepted, and the first
  that asks for the version or for help, ends the reading.

  - A long option has its value behind an equals sign or as the next argument, a short one also
    right behind its letter. Short switches may be run together.
  - The next argument is no value if it begins with a dash, unless it is nothing but a dash.
  - Only `--file` and `-v` may be repeated, and only `--file` and `--param` may be empty.
-/

namespace SchemaSummary

/-- The options of a run on a descriptor set. -/
structure OfflineOptions where
  /-- The file that holds the descriptor set. -/
  descriptorSet : String
  /-- The names of the files to generate; none stands for all. -/
  files : List String := []
  /-- The parameter that a host would give. -/
  parameter : Option String := none
  /-- The directory for generated files. -/
  output : String := "."
  /-- Whether to say what would be written instead of writing it. -/
  dryRun : Bool := false
  verbosity : Nat := 0
  deriving Repr, BEq, DecidableEq, Inhabited

/-- What the command line asks for. -/
inductive Invocation where
  | usageError
  | help
  | version
  | plugin (verbosity : Nat)
  | offline (options : OfflineOptions)
  deriving Repr, BEq, DecidableEq, Inhabited

/-! ## Options -/

/-- The options that have a value. -/
inductive ValueOption where
  | descriptorSet
  | file
  | param
  | output
  deriving Repr, BEq, DecidableEq, Inhabited

/-- The options that have none. -/
inductive Switch where
  | dryRun
  | verbose
  | version
  | help
  deriving Repr, BEq, DecidableEq, Inhabited

/-- The option with a long name. -/
def optionNamed? (name : String) : Option (ValueOption ⊕ Switch) :=
  [("descriptor-set", .inl .descriptorSet), ("file", .inl .file), ("param", .inl .param),
   ("output", .inl .output), ("dry-run", .inr .dryRun), ("verbose", .inr .verbose),
   ("version", .inr .version), ("help", .inr .help)].lookup name

/-- The option with a letter. -/
def optionLettered? : Char → Option (ValueOption ⊕ Switch)
  | 'o' => some (.inl .output)
  | 'v' => some (.inr .verbose)
  | 'V' => some (.inr .version)
  | 'h' => some (.inr .help)
  | _ => none

/-! ## Reading -/

/-- What the arguments have said so far. -/
structure ArgumentState where
  descriptorSet : Option String := none
  files : List String := []
  parameter : Option String := none
  output : Option String := none
  dryRun : Bool := false
  verbosity : Nat := 0
  /-- The option that waits for its value. -/
  pending : Option ValueOption := none
  /-- Whether a double dash has ended the options. -/
  ended : Bool := false
  deriving Repr, BEq, DecidableEq, Inhabited

/-- A step of reading, or what the command line asks for if that is clear already. -/
abbrev ArgumentStep := Except Invocation ArgumentState

namespace ArgumentState

/-- Takes the value of an option. -/
def give (s : ArgumentState) (option : ValueOption) (value : String) : ArgumentStep :=
  let s := { s with pending := none }
  match option with
  | .file => .ok { s with files := s.files ++ [value] }
  | .param =>
    if s.parameter.isSome then .error .usageError else .ok { s with parameter := some value }
  | .descriptorSet =>
    if s.descriptorSet.isSome || value.isEmpty then .error .usageError
    else .ok { s with descriptorSet := some value }
  | .output =>
    if s.output.isSome || value.isEmpty then .error .usageError
    else .ok { s with output := some value }

/-- Takes a switch. -/
def turn (s : ArgumentState) : Switch → ArgumentStep
  | .dryRun => if s.dryRun then .error .usageError else .ok { s with dryRun := true }
  | .verbose => .ok { s with verbosity := s.verbosity + 1 }
  | .version => .error .version
  | .help => .error .help

/-- Takes a long option, given without its dashes. -/
def long (s : ArgumentState) (text : List Char) : ArgumentStep :=
  let name := text.takeWhile (· != '=')
  let value? := (text.dropWhile (· != '=')).tail?
  match optionNamed? (String.ofList name), value? with
  | none, _ => .error .usageError
  | some (.inl option), some value => s.give option (String.ofList value)
  | some (.inl option), none => .ok { s with pending := some option }
  | some (.inr switch), none => s.turn switch
  | some (.inr _), some _ => .error .usageError

/-- Takes short options that are run together, given without their dash. -/
def short (s : ArgumentState) : List Char → ArgumentStep
  | [] => .ok s
  | c :: cs =>
    match optionLettered? c with
    | none => .error .usageError
    | some (.inr switch) =>
      match s.turn switch with
      | .error asked => .error asked
      | .ok s => s.short cs
    | some (.inl option) =>
      match cs with
      | [] => .ok { s with pending := some option }
      | '=' :: value => s.give option (String.ofList value)
      | value => s.give option (String.ofList value)

/-- Takes an argument. -/
def take (s : ArgumentState) (argument : String) : ArgumentStep :=
  match s.pending, argument.toList with
  -- A lone dash is a value, anything longer that begins with one is not.
  | some _, '-' :: _ :: _ => .error .usageError
  | some option, _ => s.give option argument
  | none, '-' :: '-' :: text =>
    if s.ended then .error .usageError
    else if text.isEmpty then .ok { s with ended := true }
    else s.long text
  | none, '-' :: c :: cs => if s.ended then .error .usageError else s.short (c :: cs)
  | none, _ => .error .usageError

/-- What the command line asks for when all arguments are taken. -/
def finish (s : ArgumentState) : Invocation :=
  if s.pending.isSome then .usageError
  else
    match s.descriptorSet with
    | some descriptorSet =>
      .offline
        { descriptorSet, files := s.files, parameter := s.parameter,
          output := s.output.getD ".", dryRun := s.dryRun, verbosity := s.verbosity }
    | none =>
      if s.files.isEmpty && s.parameter.isNone && s.output.isNone && !s.dryRun then
        .plugin s.verbosity
      else .usageError

end ArgumentState

/-- What a command line asks for. -/
def Invocation.ofArguments (arguments : List String) : Invocation :=
  match arguments.foldlM ArgumentState.take {} with
  | .error asked => asked
  | .ok s => s.finish

end SchemaSummary
