import SchemaSummary.Proofs.Generation.ImportPaths

/-! # What output names depend on

  An output name is made of few things.

  * Where output names follow schema files, it is made of the name of the schema file alone.
  * Where they follow import paths, it is made of the import path without the slashes at its end, of
    the base name of the schema file, and of the module. It makes no difference whether that path is
    configured or declared.
  * A declaration with nothing before its first semicolon is as good as none.

  Runs that agree in these things have the same output name or the same error, whatever else sets
  their configurations and schema files apart.
-/

namespace SchemaSummary

/-! ## Trailing slashes -/

/-- Whether two paths differ in nothing but the slashes at their ends. -/
def SameUpToSlashes (path path' : List Char) : Prop :=
  ∃ start m n, path = start ++ List.replicate m '/' ∧ path' = start ++ List.replicate n '/'

theorem sameUpToSlashes_iff {path path' : List Char} :
    SameUpToSlashes path path' ↔ Text.trimEndOf '/' path = Text.trimEndOf '/' path' := by
  constructor
  · intro h
    obtain ⟨start, m, n, rfl, rfl⟩ := h
    rw [Text.trimEndOf_append_replicate, Text.trimEndOf_append_replicate]
  · intro h
    obtain ⟨m, hm⟩ := Text.exists_trimEndOf_append '/' path
    obtain ⟨n, hn⟩ := Text.exists_trimEndOf_append '/' path'
    exact ⟨Text.trimEndOf '/' path, m, n, hm, h ▸ hn⟩

/-! ## Base names -/

/-- Whether a text is an ending that is no part of the base name of a schema file: an extension, or
    nothing at all where the name has none. -/
def FileDescriptor.EndsWith (f : FileDescriptor) (ending : List Char) : Prop :=
  (∃ ext ∈ schemaExtensions, ending = ext.toList) ∨
    (ending = [] ∧ ∀ ext ∈ schemaExtensions, ¬ ext.toList <:+ f.path.toList)

/-- Whether a text is the base name of a schema file, which stands between the directories and the
    extension. -/
structure FileDescriptor.HasBaseName (f : FileDescriptor) (base : List Char) : Prop where
  slash : '/' ∉ base
  parts : ∃ dir ending, f.path.toList = dir ++ base ++ ending ∧
    (dir = [] ∨ dir.getLast? = some '/') ∧ f.EndsWith ending

namespace FileDescriptor

variable {f : FileDescriptor}

/-- No name ends in both extensions, since their last characters differ. -/
theorem extension_unique {ext ext' : String} (hext : ext ∈ schemaExtensions)
    (hext' : ext' ∈ schemaExtensions) {stem stem' : List Char}
    (h : stem ++ ext.toList = stem' ++ ext'.toList) : ext = ext' := by
  have hlast : ∀ e ∈ schemaExtensions, ∀ e' ∈ schemaExtensions,
      e.toList.getLast? = e'.toList.getLast? → e = e' := by
    decide
  have hsome : ∀ e ∈ schemaExtensions, e.toList.getLast?.isSome = true := by decide
  obtain ⟨c, hc⟩ := Option.isSome_iff_exists.mp (hsome ext hext)
  obtain ⟨c', hc'⟩ := Option.isSome_iff_exists.mp (hsome ext' hext')
  have heq := congrArg List.getLast? h
  rw [List.getLast?_append, List.getLast?_append, hc, hc'] at heq
  exact hlast ext hext ext' hext' (hc.trans (heq.trans hc'.symm))

/-- The stem of a schema file stands in front of its ending. -/
theorem stem_eq_iff {stem : List Char} :
    f.stem = stem ↔ ∃ ending, f.path.toList = stem ++ ending ∧ f.EndsWith ending := by
  unfold FileDescriptor.stem
  cases hfind : schemaExtensions.findSome? fun ext => ext.toList.isSuffixOf? f.path.toList with
  | none =>
    have hno : ∀ ext ∈ schemaExtensions, ¬ ext.toList <:+ f.path.toList := by
      intro ext hext hsuffix
      obtain ⟨rest, hrest⟩ := hsuffix
      have hnone := List.findSome?_eq_none_iff.mp hfind ext hext
      rw [List.isSuffixOf?_eq_some_iff_append_eq.mpr hrest] at hnone
      cases hnone
    constructor
    · intro h
      exact ⟨[], by rw [List.append_nil, ← h]; rfl, .inr ⟨rfl, hno⟩⟩
    · intro h
      obtain ⟨ending, hpath, ⟨ext, hext, rfl⟩ | ⟨rfl, -⟩⟩ := h
      · exact absurd ⟨stem, hpath.symm⟩ (hno ext hext)
      · rw [Option.getD_none, hpath, List.append_nil]
  | some rest =>
    obtain ⟨ext, hext, hdrop⟩ := List.exists_of_findSome?_eq_some hfind
    have hrest := (List.isSuffixOf?_eq_some_iff_append_eq.mp hdrop).symm
    constructor
    · intro h
      exact ⟨ext.toList, h ▸ hrest, .inl ⟨ext, hext, rfl⟩⟩
    · intro h
      obtain ⟨ending, hpath, ⟨ext', hext', rfl⟩ | ⟨rfl, hno⟩⟩ := h
      · have hsame := hrest.symm.trans hpath
        rw [extension_unique hext hext' hsame] at hsame
        exact List.append_cancel_right hsame
      · exact absurd ⟨rest, hrest.symm⟩ (hno ext hext)

theorem hasBaseName_iff {base : List Char} :
    f.HasBaseName base ↔ Text.lastPart '/' f.stem = base := by
  rw [Text.lastPart_eq_iff]
  constructor
  · intro h
    obtain ⟨dir, ending, hpath, hdir, hending⟩ := h.parts
    exact ⟨h.slash, dir, stem_eq_iff.mpr ⟨ending, hpath, hending⟩, hdir⟩
  · intro h
    obtain ⟨hslash, dir, hstem, hdir⟩ := h
    obtain ⟨ending, hpath, hending⟩ := stem_eq_iff.mp hstem
    exact ⟨hslash, dir, ending, hpath, hdir, hending⟩

end FileDescriptor

/-! ## Import paths -/

/-- Whether a schema file has an import path, and which.

    * The configured one is taken as it stands.
    * The declared one ends at the first semicolon, if there is one, and has to be something. -/
inductive Config.HasImportPath (c : Config) (f : FileDescriptor) : List Char → Prop where
  | configured {path : String} (hpath : c.importPaths[f.path]? = some path) :
      HasImportPath c f path.toList
  | declared {declared : String} {path rest : List Char}
      (hnone : c.importPaths[f.path]? = none)
      (hdeclared : f.options.bind FileOptions.goPackage = some declared)
      (hsplit : declared.toList = path ++ rest) (hrest : rest = [] ∨ rest.head? = some ';')
      (hpath : ';' ∉ path) (hne : path ≠ []) : HasImportPath c f path

namespace FileDescriptor

variable {f : FileDescriptor}

theorem declaredImportPath?_eq_some_iff {path : List Char} :
    f.declaredImportPath? = some (String.ofList path) ↔
      ∃ declared, f.options.bind FileOptions.goPackage = some declared ∧
        (Text.cut ';' declared.toList).1 = path ∧ path ≠ [] := by
  unfold declaredImportPath?
  cases f.options.bind FileOptions.goPackage with
  | none => simp
  | some declared =>
    by_cases hcut : (Text.cut ';' declared.toList).1 = []
    · simp [hcut, eq_comm]
    · simp only [List.isEmpty_iff, hcut, if_false, Option.some.injEq, String.ofList_inj,
        exists_eq_left']
      constructor
      · intro h
        exact ⟨h, h ▸ hcut⟩
      · exact And.left

end FileDescriptor

namespace Config

variable {c : Config} {f : FileDescriptor}

theorem hasImportPath_iff {path : List Char} :
    c.HasImportPath f path ↔ c.importPath? f = some (String.ofList path) := by
  unfold importPath?
  constructor
  · intro h
    cases h with
    | configured hpath => rw [hpath, String.ofList_toList]
    | declared hnone hdeclared hsplit hrest hpath hne =>
      rw [hnone, FileDescriptor.declaredImportPath?_eq_some_iff]
      exact ⟨_, hdeclared, Text.cut_fst_eq_iff.mpr ⟨hpath, _, hsplit, hrest⟩, hne⟩
  · intro h
    cases hconfigured : c.importPaths[f.path]? with
    | some path' =>
      rw [hconfigured] at h
      have hpath : path = path'.toList := by
        rw [Option.some.inj h, String.toList_ofList]
      rw [hpath]
      exact .configured hconfigured
    | none =>
      rw [hconfigured, FileDescriptor.declaredImportPath?_eq_some_iff] at h
      obtain ⟨declared, hdeclared, hcut, hne⟩ := h
      obtain ⟨hpath, rest, hsplit, hrest⟩ := Text.cut_fst_eq_iff.mp hcut
      exact .declared hconfigured hdeclared hsplit hrest hpath hne

/-! ## Output names -/

/-- Where output names follow schema files, nothing but the name of the schema file counts. -/
theorem outputStem_of_sourceRelative (hpaths : c.paths = .sourceRelative) :
    c.outputStem f = .ok (String.ofList f.stem) := by
  rw [outputStem, hpaths]

/-- With an import path, the output name is the base name below that path, less the module. -/
theorem outputStem_of_hasImportPath {path base : List Char} (hpaths : c.paths = .importPath)
    (hpath : c.HasImportPath f path) (hbase : f.HasBaseName base) :
    c.outputStem f = c.leaveModule (Text.trimEndOf '/' path ++ '/' :: base) := by
  rw [outputStem, hpaths]
  simp only [importName, hasImportPath_iff.mp hpath, placeBelow,
    FileDescriptor.hasBaseName_iff.mp hbase, String.toList_ofList]

/-- Removing the module looks at nothing else of a configuration. -/
theorem leaveModule_congr {c' : Config} (h : c.moduleName = c'.moduleName) (name : List Char) :
    c.leaveModule name = c'.leaveModule name := by
  rw [leaveModule, leaveModule, h]

end Config

theorem FileDescriptor.declaredImportPath?_eq_none {f : FileDescriptor} {declared : String}
    (hdeclared : f.options.bind FileOptions.goPackage = some declared)
    (hstart : declared = "" ∨ declared.toList.head? = some ';') :
    f.declaredImportPath? = none := by
  have hcut : (Text.cut ';' declared.toList).1 = [] := by
    rw [Text.cut_fst_eq_iff]
    refine ⟨List.not_mem_nil, declared.toList, rfl, ?_⟩
    rwa [String.toList_eq_nil_iff]
  unfold declaredImportPath?
  rw [hdeclared]
  simp [hcut]

/-- **Output names depend on little.**

    * Where output names follow schema files, all configurations give all schema files of one name
      the same output name.
    * Where they follow import paths, configurations with one module give the same output name, or
      the same error, to schema files of one base name that have import paths which differ in
      slashes at the end only.
    * A declaration that is empty or begins with a semicolon is as good as none. -/
theorem outputStem_inputs :
    (∀ (c c' : Config) (f f' : FileDescriptor), c.paths = .sourceRelative →
        c'.paths = .sourceRelative → f.path = f'.path →
        ∃ stem, c.outputStem f = .ok stem ∧ c'.outputStem f' = .ok stem) ∧
      (∀ (c c' : Config) (f f' : FileDescriptor) (path path' base : List Char),
        c.paths = .importPath → c'.paths = .importPath → c.moduleName = c'.moduleName →
        c.HasImportPath f path → c'.HasImportPath f' path' → SameUpToSlashes path path' →
        f.HasBaseName base → f'.HasBaseName base → c.outputStem f = c'.outputStem f') ∧
      ∀ (c : Config) (f : FileDescriptor) (options : FileOptions) (declared : String),
        f.options = some options → options.goPackage = some declared →
        (declared = "" ∨ declared.toList.head? = some ';') →
        c.outputStem f = c.outputStem { f with options := none } ∧
          c.outputStem f =
            c.outputStem { f with options := some { options with goPackage := none } } := by
  refine ⟨?_, ?_, ?_⟩
  · intro c c' f f' hpaths hpaths' hpath
    refine ⟨String.ofList f.stem, Config.outputStem_of_sourceRelative hpaths, ?_⟩
    rw [Config.outputStem_of_sourceRelative hpaths', FileDescriptor.stem, ← hpath]
    rfl
  · intro c c' f f' path path' base hpaths hpaths' hmodule hpath hpath' hsame hbase hbase'
    rw [Config.outputStem_of_hasImportPath hpaths hpath hbase,
      Config.outputStem_of_hasImportPath hpaths' hpath' hbase', sameUpToSlashes_iff.mp hsame,
      Config.leaveModule_congr hmodule]
  · intro c f options declared hoptions hdeclared hstart
    have hbind : f.options.bind FileOptions.goPackage = some declared := by
      rw [hoptions, Option.bind_some, hdeclared]
    have hnone := FileDescriptor.declaredImportPath?_eq_none hbind hstart
    exact ⟨c.outputStem_congr rfl hnone, c.outputStem_congr rfl hnone⟩

/-! ### A schema file that has moved -/

namespace Moved

/-- A schema file that declares its import path. -/
def declaring : FileDescriptor where
  name := some "acme/v1/foo.proto"
  options := some { goPackage := some "example.com/acme//;acmev1" }

/-- A schema file in another directory that declares none. -/
def silent : FileDescriptor where
  name := some "old//foo.protodevel"

/-- A configuration that knows nothing of these files. -/
def plain : Config where
  moduleName := some "example.com"

/-- A configuration with an import path for the second one. -/
def overriding : Config := plain.set (.importPath silent.path "example.com/acme/")

end Moved

open Moved in
/-- A file that was moved and whose import path is configured keeps its output name. -/
theorem outputStem_inputs_moved :
    (∃ stem, (plain.set (.paths .sourceRelative)).outputStem declaring = .ok stem ∧
        (overriding.set (.paths .sourceRelative)).outputStem { declaring with options := none } =
          .ok stem) ∧
      plain.HasImportPath declaring "example.com/acme//".toList ∧
      overriding.HasImportPath silent "example.com/acme/".toList ∧
      declaring.HasBaseName "foo".toList ∧ silent.HasBaseName "foo".toList ∧
      plain.outputStem declaring = overriding.outputStem silent ∧
      plain.outputStem { declaring with options := some { goPackage := some ";acmev1" } } =
        plain.outputStem { declaring with options := none } := by
  have hsplit : "example.com/acme//;acmev1".toList =
      "example.com/acme//".toList ++ ";acmev1".toList := rfl
  have hpath : plain.HasImportPath declaring "example.com/acme//".toList :=
    .declared (by decide) rfl hsplit (by decide) (by decide) (by decide)
  have hpath' : overriding.HasImportPath silent "example.com/acme/".toList :=
    .configured (by simp [overriding, Config.set])
  have hsame : SameUpToSlashes "example.com/acme//".toList "example.com/acme/".toList :=
    ⟨"example.com/acme".toList, 2, 1, rfl, rfl⟩
  have hbase : declaring.HasBaseName "foo".toList :=
    ⟨by decide, "acme/v1/".toList, ".proto".toList, rfl, by decide,
      .inl ⟨".proto", by decide, rfl⟩⟩
  have hbase' : silent.HasBaseName "foo".toList :=
    ⟨by decide, "old//".toList, ".protodevel".toList, rfl, by decide,
      .inl ⟨".protodevel", by decide, rfl⟩⟩
  refine ⟨outputStem_inputs.1 _ _ _ _ rfl rfl rfl, hpath, hpath', hbase, hbase', ?_, ?_⟩
  · exact outputStem_inputs.2.1 _ _ _ _ _ _ _ rfl rfl rfl hpath hpath' hsame hbase hbase'
  · exact (outputStem_inputs.2.2 plain _ _ ";acmev1" rfl rfl (.inr rfl)).1

end SchemaSummary
