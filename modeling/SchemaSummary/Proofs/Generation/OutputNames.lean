import Mathlib.Data.List.Nodup
import SchemaSummary.Proofs.Generation.Failure

/-! # Output names

  How the names of generated files come about, and when no two of them are the same.

  Each name is the output name of a selected schema file with an extension. Selection keeps the
  names of schema files apart, but their output names can be alike.

  * This is the only way in which two generated files can share a name.
  * It does occur, as with the two extensions that schema files may have.
  * It does not if output names follow schema files and all of these have the usual extension.
-/

namespace SchemaSummary

theorem generate_eq_ok_iff {q : Request} {files : List GeneratedFile} :
    generate q = .ok files ↔
      ∃ c, q.config = .ok c ∧ (Generator.yaml c).generate q = .ok files :=
  bind_eq_ok_iff

/-- A YAML file is named after the output name of its schema file. -/
theorem outputStem_of_output {c : Config} {f : FileDescriptor} {file : GeneratedFile}
    (h : (Generator.yaml c).output f = .ok file) :
    ∃ stem, c.outputStem f = .ok stem ∧ file.name = stem ++ ".yaml" := by
  obtain ⟨stem, hstem, rfl⟩ := output_yaml_eq_ok_iff.mp h
  exact ⟨stem, hstem, rfl⟩

/-- Every generated file comes from a selected schema file. -/
theorem exists_selected_of_mem {q : Request} {files : List GeneratedFile}
    (h : generate q = .ok files) {file : GeneratedFile} (hfile : file ∈ files) :
    ∃ c f, q.config = .ok c ∧ f ∈ q.selected ∧ (Generator.yaml c).output f = .ok file := by
  obtain ⟨c, hconfig, hfiles⟩ := generate_eq_ok_iff.mp h
  obtain ⟨-, houtputs⟩ := Generator.generate_eq_ok_iff.mp hfiles
  have hmem : Except.ok file ∈ q.selected.map (Generator.yaml c).output :=
    houtputs ▸ List.mem_map_of_mem hfile
  obtain ⟨f, hf, hout⟩ := List.mem_map.mp hmem
  exact ⟨c, f, hconfig, hf, hout⟩

/-- Every generated file has the extension of YAML files. -/
theorem exists_name_eq_append {q : Request} {files : List GeneratedFile}
    (h : generate q = .ok files) {file : GeneratedFile} (hfile : file ∈ files) :
    ∃ stem, file.name = stem ++ ".yaml" := by
  obtain ⟨c, f, -, -, hout⟩ := exists_selected_of_mem h hfile
  obtain ⟨stem, -, hname⟩ := outputStem_of_output hout
  exact ⟨stem, hname⟩

/-- No schema file is selected twice. -/
theorem nodup_selected (q : Request) : q.selected.Nodup :=
  q.nodup_map_path_selected.of_map _

section Names

variable {q : Request} {c : Config} {files : List GeneratedFile}

/-- The names of the generated files are the output names of the selected ones. -/
theorem map_name_eq (hconfig : q.config = .ok c) (h : generate q = .ok files) :
    files.map (fun file => Except.ok file.name) =
      q.selected.map fun f => (c.outputStem f).map (· ++ ".yaml") := by
  obtain ⟨c', hconfig', hfiles⟩ := generate_eq_ok_iff.mp h
  obtain rfl := Except.ok.inj (hconfig.symm.trans hconfig')
  obtain ⟨-, houtputs⟩ := Generator.generate_eq_ok_iff.mp hfiles
  have hname : ∀ f ∈ q.selected,
      ((Generator.yaml c).output f).map GeneratedFile.name =
        (c.outputStem f).map (· ++ ".yaml") := by
    intro f hf
    have hmem : (Generator.yaml c).output f ∈ files.map Except.ok :=
      houtputs ▸ List.mem_map_of_mem hf
    obtain ⟨file, -, heq⟩ := List.mem_map.mp hmem
    obtain ⟨stem, hstem, hname⟩ := outputStem_of_output heq.symm
    rw [← heq, hstem]
    exact congrArg Except.ok hname
  calc files.map (fun file => Except.ok file.name)
      = (files.map Except.ok).map (Except.map GeneratedFile.name) := by
        rw [List.map_map]
        rfl
    _ = (q.selected.map (Generator.yaml c).output).map (Except.map GeneratedFile.name) := by
        rw [houtputs]
    _ = q.selected.map fun f => (c.outputStem f).map (· ++ ".yaml") := by
        rw [List.map_map]
        exact List.map_congr_left hname

/-- The extension keeps different output names different. -/
theorem map_append_inj {f g : FileDescriptor} :
    (c.outputStem f).map (· ++ ".yaml") = (c.outputStem g).map (· ++ ".yaml") ↔
      c.outputStem f = c.outputStem g := by
  cases c.outputStem f <;> cases c.outputStem g <;> simp [Except.map]

/-- Two generated files share a name exactly if two selected schema files share an output name. -/
theorem nodup_names_iff_outputStem (hconfig : q.config = .ok c) (h : generate q = .ok files) :
    (files.map GeneratedFile.name).Nodup ↔ (q.selected.map c.outputStem).Nodup := by
  have hok : (files.map GeneratedFile.name).Nodup ↔
      (files.map fun file => (Except.ok file.name : Except Error String)).Nodup := by
    have hcompose : (files.map fun file => (Except.ok file.name : Except Error String)) =
        (files.map GeneratedFile.name).map Except.ok := by
      rw [List.map_map]
      rfl
    rw [hcompose, List.nodup_map_iff fun a b hab => Except.ok.inj hab]
  rw [hok, map_name_eq hconfig h, List.nodup_map_iff_inj_on (nodup_selected q),
    List.nodup_map_iff_inj_on (nodup_selected q)]
  simp only [map_append_inj]

/-- **Names of generated files** are pairwise different exactly if no two selected schema files
    have the same output name. -/
theorem nodup_names_iff (hconfig : q.config = .ok c) (h : generate q = .ok files) :
    (files.map GeneratedFile.name).Nodup ↔
      ∀ f ∈ q.selected, ∀ g ∈ q.selected, c.outputStem f = c.outputStem g → f = g := by
  rw [nodup_names_iff_outputStem hconfig h, List.nodup_map_iff_inj_on (nodup_selected q)]

/-! ### The usual extension -/

theorem stem_of_path {f : FileDescriptor} {stem : String} (h : f.path = stem ++ ".proto") :
    f.stem = stem.toList := by
  have hdrop : ".proto".toList.isSuffixOf? f.path.toList = some stem.toList := by
    rw [List.isSuffixOf?_eq_some_iff_append_eq, h, String.toList_append]
  unfold FileDescriptor.stem schemaExtensions
  rw [List.findSome?_cons, hdrop]
  rfl

/-- Output names that follow schema files with the usual extension are pairwise different. -/
theorem nodup_names_of_sourceRelative (hconfig : q.config = .ok c) (h : generate q = .ok files)
    (hpaths : c.paths = .sourceRelative)
    (hproto : ∀ name ∈ q.filesToGenerate, ∃ stem, name = stem ++ ".proto") :
    (files.map GeneratedFile.name).Nodup := by
  rw [nodup_names_iff_outputStem hconfig h, List.nodup_map_iff_inj_on (nodup_selected q)]
  intro f hf g hg heq
  obtain ⟨hfwanted, hffirst⟩ := Request.mem_selected_iff.mp hf
  obtain ⟨hgwanted, hgfirst⟩ := Request.mem_selected_iff.mp hg
  obtain ⟨stem, hstem⟩ := hproto f.path hfwanted
  obtain ⟨stem', hstem'⟩ := hproto g.path hgwanted
  -- One output name is one stem, and so one name of a schema file.
  have hstems : stem = stem' := by
    unfold Config.outputStem at heq
    rw [hpaths, stem_of_path hstem, stem_of_path hstem'] at heq
    simpa using heq
  have hpath : f.path = g.path := by rw [hstem, hstem', hstems]
  rw [hpath, hgfirst] at hffirst
  exact (Option.some.inj hffirst).symm

end Names

/-! ## Two files with one output name -/

/-- A request for two schema files of one name that have different extensions. -/
def twins : Request where
  filesToGenerate := ["a.proto", "a.protodevel"]
  files := [{ name := some "a.proto", services := [{ name := some "A" }] },
    { name := some "a.protodevel", services := [{ name := some "B" }] }]

/-- What is generated for the twins. -/
def twinFiles : List GeneratedFile :=
  [⟨"a.yaml", "messages: []\nservices:\n- name: A\n  methods: []\n"⟩,
    ⟨"a.yaml", "messages: []\nservices:\n- name: B\n  methods: []\n"⟩]

/-- Two generated files can share a name, and differ in their contents. -/
theorem names_of_twins : generate twins = .ok twinFiles ∧
    ¬ (twinFiles.map GeneratedFile.name).Nodup ∧
    (twinFiles.map GeneratedFile.content).Nodup := by
  refine ⟨rfl, ?_, ?_⟩
  · decide
  · decide

/-- Two schema files are selected that have one output name. -/
theorem outputStem_of_twins : ¬ ∀ f ∈ twins.selected, ∀ g ∈ twins.selected,
    Config.outputStem {} f = Config.outputStem {} g → f = g := by
  have hconfig : twins.config = .ok {} := rfl
  have hfiles : generate twins = .ok twinFiles := rfl
  rw [← nodup_names_iff hconfig hfiles]
  decide

end SchemaSummary
