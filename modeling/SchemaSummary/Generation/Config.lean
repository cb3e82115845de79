import Std.Data.ExtTreeMap
import SchemaSummary.Error
import SchemaSummary.Text.Blank

/-! # Configuration

  How output names are derived, and how the plugin parameter says it.

  The parameter is a list of entries with commas between them. Blanks around an entry and empty
  entries mean nothing. An entry is a key, or a key and a value with an equals sign between them:

  - `paths=import` or `paths=source_relative` chooses what output names follow;
  - `module=M` removes the module `M` from the front of every output name;
  - `Mfile=path` gives the import path of one schema file;
  - `annotate_code`, alone or as a truth value, is accepted and changes nothing.

  Of several entries with one key the last one counts.
-/

namespace SchemaSummary

/-- What output names follow. -/
inductive PathMode where
  /-- The import path of a schema file, if it has one. -/
  | importPath
  /-- The name of the schema file. -/
  | sourceRelative
  deriving Repr, BEq, DecidableEq, Inhabited

namespace PathMode

/-- The value that stands for a mode. -/
def text : PathMode → String
  | .importPath => "import"
  | .sourceRelative => "source_relative"

/-- The mode that a value stands for. -/
def ofText (value : String) : Except Error PathMode :=
  if value = "import" then .ok .importPath
  else if value = "source_relative" then .ok .sourceRelative
  else .error (.invalidParameter ("paths=" ++ value) .pathMode)

/-- A mode is read from its text. -/
@[simp] theorem ofText_text (mode : PathMode) : ofText mode.text = .ok mode := by
  cases mode <;> rfl

end PathMode

/-- How output names are derived. -/
structure Config where
  paths : PathMode := .importPath
  /-- The module that is removed from output names. -/
  moduleName : Option String := none
  /-- Import paths by the name of the schema file; they outrank those the files declare. -/
  importPaths : Std.ExtTreeMap String String := {}
  deriving Inhabited

/-! ## Settings -/

/-- What one entry of the parameter says. -/
inductive Setting where
  | paths (mode : PathMode)
  | moduleName (name : String)
  | importPath (file path : String)
  | annotate (value : String)
  deriving Repr, BEq, DecidableEq, Inhabited

namespace Setting

/-- The values of a setting that is a truth value; the empty one stands for none at all. -/
def truthValues : List String := ["", "true", "false"]

/-- The setting in an entry without blanks around it. -/
def parse (entry : String) : Except Error Setting :=
  let (key, value?) := Text.cut '=' entry.toList
  let value := String.ofList (value?.getD [])
  if key = "paths".toList then (PathMode.ofText value).map .paths
  else if key = "module".toList then .ok (.moduleName value)
  else if key = "annotate_code".toList then
    if truthValues.contains value then .ok (.annotate value)
    else .error (.invalidParameter entry .truthValue)
  else
    match key with
    | 'M' :: c :: file => .ok (.importPath (String.ofList (c :: file)) value)
    | _ => .error (.invalidParameter entry .unknown)

/-- The entry for a setting. -/
def text : Setting → String
  | .paths mode => "paths=" ++ mode.text
  | .moduleName name => "module=" ++ name
  | .importPath file path => "M" ++ file ++ "=" ++ path
  | .annotate value => "annotate_code=" ++ value

end Setting

/-! ## Configurations -/

namespace Config

/-- A configuration changed by a setting. -/
def set (c : Config) : Setting → Config
  | .paths mode => { c with paths := mode }
  | .moduleName name => { c with moduleName := some name }
  | .importPath file path => { c with importPaths := c.importPaths.insert file path }
  | .annotate _ => c

/-- Refuses a module where output names do not follow import paths. -/
def check (c : Config) : Except Error Config :=
  if c.moduleName.isSome ∧ c.paths ≠ .importPath then
    .error (.invalidParameter ("paths=" ++ c.paths.text) .moduleClash)
  else .ok c

/-- The settings that make up a configuration. -/
def settings (c : Config) : List Setting :=
  .paths c.paths :: (c.moduleName.toList.map .moduleName ++
    c.importPaths.toList.map fun p => .importPath p.1 p.2)

end Config

/-- The entries of a parameter, without blanks around them and without the empty ones. -/
def parameterEntries (parameter : String) : List String :=
  (((parameter.toList.splitOn ',').map Text.trim).filter fun e => !e.isEmpty).map String.ofList

/-- The parameter that consists of the given entries. -/
def joinEntries (entries : List String) : String := String.intercalate "," entries

/-- The configuration that a parameter describes. The first entry that cannot be accepted is
    reported, and only then what the entries say together. -/
def Config.ofParameter (parameter : String) : Except Error Config := do
  -- All entries are read before any of them is weighed against another.
  let settings ← (parameterEntries parameter).mapM Setting.parse
  (settings.foldl Config.set {}).check

end SchemaSummary
