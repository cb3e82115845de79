import SchemaSummary.Generation.Config
import SchemaSummary.Schema.Descriptor

/-! # Output names

  The name of the file that is generated for a schema file, without its extension.

  It is the name of the schema file without its extension or, if output names follow import
  paths and the file has one, the last part of that name below the import path. In the second
  mode the module is then removed from the front.
-/

namespace SchemaSummary

/-- The extensions of schema files. -/
def schemaExtensions : List String := [".proto", ".protodevel"]

/-- The name of a schema file without its extension. -/
def FileDescriptor.stem (f : FileDescriptor) : List Char :=
  (schemaExtensions.findSome? fun ext => ext.toList.isSuffixOf? f.path.toList).getD
    f.path.toList

/-- The import path that a schema file declares. What follows a semicolon is the name of a
    package, and an empty import path is none. -/
def FileDescriptor.declaredImportPath? (f : FileDescriptor) : Option String :=
  match f.options.bind FileOptions.goPackage with
  | none => none
  | some declared =>
    let path := (Text.cut ';' declared.toList).1
    if path.isEmpty then none else some (String.ofList path)

/-- The last part of `name` below `path`; slashes at the end of `path` do not count. -/
def placeBelow (path name : List Char) : List Char :=
  Text.trimEndOf '/' path ++ '/' :: Text.lastPart '/' name

namespace Config

/-- The import path of a schema file: the configured one, else the declared one. -/
def importPath? (c : Config) (f : FileDescriptor) : Option String :=
  match c.importPaths[f.path]? with
  | some path => some path
  | none => f.declaredImportPath?

/-- The output name of a schema file as its import path has it. -/
def importName (c : Config) (f : FileDescriptor) : List Char :=
  match c.importPath? f with
  | some path => placeBelow path.toList f.stem
  | none => f.stem

/-- Removes the module and the slash behind it from the front of an output name. -/
def leaveModule (c : Config) (name : List Char) : Except Error String :=
  match c.moduleName with
  | none => .ok (String.ofList name)
  | some m =>
    match (m.toList ++ ['/']).isPrefixOf? name with
    | some rest => .ok (String.ofList rest)
    | none => .error (.outsideModule (String.ofList name) m)

/-- The output name of a schema file, without an extension. -/
def outputStem (c : Config) (f : FileDescriptor) : Except Error String :=
  match c.paths with
  | .sourceRelative => .ok (String.ofList f.stem)
  | .importPath => c.leaveModule (c.importName f)

/-- Schema files with one name that declare one import path have one output name. -/
theorem outputStem_congr (c : Config) {f g : FileDescriptor} (hpath : f.path = g.path)
    (hdeclared : f.declaredImportPath? = g.declaredImportPath?) :
    c.outputStem f = c.outputStem g := by
  have hstem : f.stem = g.stem := by rw [FileDescriptor.stem, FileDescriptor.stem, hpath]
  have himport : c.importPath? f = c.importPath? g := by
    rw [importPath?, importPath?, hpath, hdeclared]
  rw [outputStem, outputStem, importName, importName, himport, hstem]

end Config

end SchemaSummary
