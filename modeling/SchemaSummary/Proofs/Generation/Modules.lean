import Mathlib.Data.Set.List
import SchemaSummary.Proofs.Generation.Failure

/-! # Modules

  What a module does to a run in which output names follow import paths.

  * The run has the files of the run without the module, and their names without the module and the
    slash behind it.
  * It succeeds exactly if all names of the run without the module begin with these. The module is
    looked for before names have their extension, but no extension has a slash, so it makes no
    difference.
  * The slash ends a part of a path, so what is removed are whole parts.
-/

namespace SchemaSummary

/-! ## Names -/

/-- What stands behind the last slash has no part in where a name begins. -/
theorem append_eq_append_slash_iff {start rest stem ending : List Char} (h : '/' ∉ ending) :
    stem ++ ending = start ++ '/' :: rest ↔
      ∃ rest', stem = start ++ '/' :: rest' ∧ rest = rest' ++ ending := by
  constructor
  · intro heq
    rcases List.append_eq_append_iff.mp heq with ⟨overlap, -, hending⟩ | ⟨rest', hstem, hrest⟩
    · -- The slash would be one of the ending.
      have hslash : '/' ∈ ending := by simp [hending]
      exact absurd hslash h
    · cases rest' with
      | nil =>
        have hslash : '/' ∈ [] ++ ending := by simp [← hrest]
        exact absurd hslash h
      | cons c rest' =>
        obtain ⟨rfl, rfl⟩ := List.cons.inj hrest
        exact ⟨rest', hstem, rfl⟩
  · intro heq
    obtain ⟨rest', rfl, rfl⟩ := heq
    simp

theorem leaveModule_eq_ok_iff {c : Config} {m : String} (hm : c.moduleName = some m)
    {name : List Char} {stem : String} :
    c.leaveModule name = .ok stem ↔ name = m.toList ++ '/' :: stem.toList := by
  have hdrop : ∀ rest, (m.toList ++ ['/']).isPrefixOf? name = some rest ↔
      name = m.toList ++ '/' :: rest := by
    intro rest
    rw [List.isPrefixOf?_eq_some_iff_append_eq, List.append_assoc, eq_comm]
    rfl
  rw [← hdrop, Config.leaveModule, hm]
  dsimp only
  cases (m.toList ++ ['/']).isPrefixOf? name with
  | none => simp
  | some rest => simp [← String.toList_inj]

/-- The generated file under the name that it has without the module. -/
def GeneratedFile.outside (m : String) (file : GeneratedFile) : GeneratedFile where
  name := m ++ "/" ++ file.name
  content := file.content

theorem GeneratedFile.toList_name_outside (m : String) (file : GeneratedFile) :
    (file.outside m).name.toList = m.toList ++ '/' :: file.name.toList := by
  simp [outside, String.toList_append]

theorem GeneratedFile.inModule_iff {m : String} {file : GeneratedFile} :
    InModule m file.name.toList ↔ ∃ inner, GeneratedFile.outside m inner = file := by
  constructor
  · intro h
    obtain ⟨rest, hrest⟩ := h
    refine ⟨⟨String.ofList rest, file.content⟩, ?_⟩
    have hname : m ++ "/" ++ String.ofList rest = file.name := by
      rw [← String.toList_inj, hrest]
      simp [String.toList_append]
    rw [outside, hname]
  · intro h
    obtain ⟨inner, rfl⟩ := h
    exact ⟨inner.name.toList, inner.toList_name_outside m⟩

/-! ## Runs with and without a module -/

section Runs

variable {c : Config}

/-- The output name inside the module is the one without the module, less the module. -/
theorem outputStem_set_moduleName_iff (hpaths : c.paths = .importPath)
    (hmodule : c.moduleName = none) (m : String) {f : FileDescriptor} {stem : String} :
    (c.set (.moduleName m)).outputStem f = .ok stem ↔
      c.outputStem f = .ok (m ++ "/" ++ stem) := by
  -- Setting a module leaves import paths as they are.
  have hinside : (c.set (.moduleName m)).outputStem f =
      (c.set (.moduleName m)).leaveModule (c.importName f) := by
    rw [Config.outputStem, show (c.set (.moduleName m)).paths = .importPath from hpaths]
    rfl
  have hplain : c.outputStem f = .ok (String.ofList (c.importName f)) := by
    rw [Config.outputStem, hpaths]
    show c.leaveModule (c.importName f) = _
    rw [Config.leaveModule, hmodule]
  rw [hinside, hplain, leaveModule_eq_ok_iff rfl, Except.ok.injEq, ← String.toList_inj,
    String.toList_ofList]
  simp [String.toList_append]

theorem output_set_moduleName_iff (hpaths : c.paths = .importPath)
    (hmodule : c.moduleName = none) (m : String) (f : FileDescriptor) (file : GeneratedFile) :
    (Generator.yaml (c.set (.moduleName m))).output f = .ok file ↔
      (Generator.yaml c).output f = .ok (file.outside m) := by
  simp only [output_yaml_eq_ok_iff, outputStem_set_moduleName_iff hpaths hmodule]
  constructor
  · intro h
    obtain ⟨stem, hstem, rfl⟩ := h
    refine ⟨m ++ "/" ++ stem, hstem, ?_⟩
    simp [GeneratedFile.outside, String.append_assoc]
  · intro h
    obtain ⟨plain, hplain, hfile⟩ := h
    obtain ⟨hname, hcontent⟩ := GeneratedFile.mk.inj hfile
    -- The module is in front of the name with its extension, and so in front of the name.
    have hchars : plain.toList ++ ".yaml".toList = m.toList ++ '/' :: file.name.toList := by
      rw [← String.toList_append, ← hname]
      exact file.toList_name_outside m
    obtain ⟨rest, hstart, hrest⟩ := (append_eq_append_slash_iff (by decide)).mp hchars
    refine ⟨String.ofList rest, ?_, ?_⟩
    · rw [hplain, Except.ok.injEq, ← String.toList_inj, hstart]
      simp [String.toList_append]
    · have hstem : file.name = String.ofList rest ++ ".yaml" := by
        rw [← String.toList_inj, hrest]
        simp
      rw [← hstem, ← hcontent]

/-- Runs with a module and without one give the same files, apart from the module in their
    names. -/
theorem generate_set_moduleName_iff (hpaths : c.paths = .importPath)
    (hmodule : c.moduleName = none) (m : String) {q : Request} {files : List GeneratedFile} :
    (Generator.yaml (c.set (.moduleName m))).generate q = .ok files ↔
      (Generator.yaml c).generate q = .ok (files.map (GeneratedFile.outside m)) := by
  rw [Generator.generate_eq_ok_iff, Generator.generate_eq_ok_iff]
  exact and_congr_right fun _ =>
    map_eq_map_ok_iff (output_set_moduleName_iff hpaths hmodule m)

/-- **A module** is removed from the names of a run, and nothing else about the run changes.

    * The run succeeds exactly if the run without the module does and all of its names begin with
      the module and a slash.
    * It then has the same files in the same order, and with the module and the slash put in front
      of their names again they are those of the run without the module.
    * The parts of such a name are those of the module and then those of the name that is left. -/
theorem generate_inside_module (hpaths : c.paths = .importPath) (hmodule : c.moduleName = none)
    (m : String) (q : Request) :
    ((∃ files, (Generator.yaml (c.set (.moduleName m))).generate q = .ok files) ↔
        ∃ files, (Generator.yaml c).generate q = .ok files ∧
          ∀ file ∈ files, InModule m file.name.toList) ∧
      (∀ files, (Generator.yaml (c.set (.moduleName m))).generate q = .ok files ↔
        (Generator.yaml c).generate q =
          .ok (files.map fun file => ⟨m ++ "/" ++ file.name, file.content⟩)) ∧
      ∀ plain files, (Generator.yaml c).generate q = .ok plain →
        (Generator.yaml (c.set (.moduleName m))).generate q = .ok files →
        List.Forall₂ (fun outer inner => outer.content = inner.content ∧
          outer.name = m ++ "/" ++ inner.name ∧
          outer.name.toList.splitOn '/' =
            m.toList.splitOn '/' ++ inner.name.toList.splitOn '/') plain files := by
  refine ⟨?_, fun files => generate_set_moduleName_iff hpaths hmodule m, ?_⟩
  · simp only [generate_set_moduleName_iff hpaths hmodule m]
    constructor
    · intro h
      obtain ⟨files, hfiles⟩ := h
      refine ⟨_, hfiles, ?_⟩
      intro file hfile
      obtain ⟨inner, -, rfl⟩ := List.mem_map.mp hfile
      exact GeneratedFile.inModule_iff.mpr ⟨inner, rfl⟩
    · intro h
      obtain ⟨plain, hplain, hall⟩ := h
      -- Names inside the module come from names without it, so the whole list does.
      have hrange : plain ∈ Set.range (List.map (GeneratedFile.outside m)) := by
        rw [Set.range_list_map]
        exact fun file hfile => GeneratedFile.inModule_iff.mp (hall file hfile)
      obtain ⟨files, rfl⟩ := hrange
      exact ⟨files, hplain⟩
  · intro plain files hplain hfiles
    rw [generate_set_moduleName_iff hpaths hmodule m, hplain] at hfiles
    rw [Except.ok.inj hfiles, List.forall₂_map_left_iff, List.forall₂_same]
    intro file _
    refine ⟨rfl, rfl, ?_⟩
    rw [file.toList_name_outside m, List.splitOn_append_cons_self]

end Runs

/-! ### Two files of one module -/

namespace Vendored

def request : Request where
  filesToGenerate := ["acme/v1/foo.proto", "bar.proto"]
  files := [
    { name := some "acme/v1/foo.proto"
      options := some { goPackage := some "example.com/acme/v1;acmev1" } },
    { name := some "bar.proto", options := some { goPackage := some "example.com/acme" } }]

def summary : String := "messages: []\nservices: []\n"

end Vendored

open Vendored in
/-- A module that ends in the middle of a part is the module of no file. -/
theorem generate_inside_acme :
    ({} : Config).paths = .importPath ∧ ({} : Config).moduleName = none ∧
      (Generator.yaml (Config.set {} (.moduleName "example.com/acme"))).generate request =
        .ok [⟨"v1/foo.yaml", summary⟩, ⟨"bar.yaml", summary⟩] ∧
      ¬ ∃ files,
        (Generator.yaml (Config.set {} (.moduleName "example.com/ac"))).generate request =
          .ok files := by
  have hplain : (Generator.yaml {}).generate request =
      .ok [⟨"example.com/acme/v1/foo.yaml", summary⟩, ⟨"example.com/acme/bar.yaml", summary⟩] := rfl
  refine ⟨rfl, rfl, ?_, ?_⟩
  · exact ((generate_inside_module rfl rfl "example.com/acme" request).2.1 _).mpr hplain
  · rw [(generate_inside_module rfl rfl "example.com/ac" request).1]
    intro h
    obtain ⟨files, hfiles, hall⟩ := h
    rw [hplain] at hfiles
    obtain rfl := Except.ok.inj hfiles
    exact absurd (hall _ List.mem_cons_self) (by decide)

end SchemaSummary
