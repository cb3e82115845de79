import SchemaSummary.Proofs.Command.Preview
import SchemaSummary.Proofs.Generation.OutputNames

/-! # Where runs write

  Output names are put together from parts of the request, and so may be any paths at all. A run
  writes no file but those whose names lead strictly below its output directory, and refuses a
  name exactly if it begins with a slash or has a part that leads upwards.
-/

namespace SchemaSummary

open Disk (access Stores SameFiles)

/-- The file of the given name lies strictly below the output directory. -/
structure OfflineOptions.Confines (o : OfflineOptions) (d : Disk) (name : String) : Prop where
  relative : name.toList.head? ≠ some '/'
  neverUpward : Path.upward ∉ name.toList.splitOn '/'
  /-- The path has the steps of the output directory and then those of the name. -/
  steps : Disk.steps (o.target name) = Disk.steps o.output ++ Disk.steps name
  strictly : Disk.steps name ≠ []
  /-- On the disk the path leads on from where the output directory is. -/
  place : d.resolve (o.target name) = d.resolve o.output ++ Disk.steps name

/-- The extension of a generated file alone leads below the output directory. -/
theorem steps_append_yaml_ne_nil (stem : String) : Disk.steps (stem ++ ".yaml") ≠ [] := by
  have hmem : 'y' ∈ (stem ++ ".yaml").toList := by
    rw [String.toList_append]
    exact List.mem_append_right _ (by decide)
  unfold Disk.steps
  rw [ne_eq, List.map_eq_nil_iff]
  exact Path.steps_ne_nil hmem (by decide) (by decide)

/-- A generated file whose name does not escape lies strictly below the output directory. -/
theorem confines_of_not_escapes {o : OfflineOptions} {d : Disk} {set : DescriptorSet}
    {files : List GeneratedFile} (h : o.Generates d set files) {f : GeneratedFile}
    (hf : f ∈ files) (hname : Path.escapes f.name.toList = false) : o.Confines d f.name := by
  obtain ⟨hrelative, hupward⟩ := Path.not_escapes_iff.mp hname
  obtain ⟨stem, hstem⟩ := exists_name_eq_append h.generates hf
  refine ⟨hrelative, hupward, ?_, ?_, Disk.resolve_join d hname⟩
  · unfold Disk.steps OfflineOptions.target
    rw [String.toList_ofList, Path.steps_join _ (Path.isAbsolute_of_not_escapes hname),
      List.map_append]
  · rw [hstem]
    exact steps_append_yaml_ne_nil stem

/-- What a run does to the files of a disk is to write some of the generated files, all of them
    strictly below the output directory. -/
theorem exists_writes (o : OfflineOptions) (d : Disk) :
    ∃ written middle, Stores d (o.writes written) middle ∧ SameFiles middle (o.runOn d).2 ∧
      ∀ f ∈ written, (∃ set files, o.Generates d set files ∧ f ∈ files) ∧ o.Confines d f.name := by
  by_cases hdry : o.dryRun = true
  · refine ⟨[], d, .nil d, ?_, by simp⟩
    rw [runOn_snd_of_dryRun hdry]
    exact .refl d
  · rw [Bool.not_eq_true] at hdry
    rcases runOn_or_generates o d with ⟨outcome, hrun, -, -⟩ | ⟨set, files, hgenerates⟩
    · refine ⟨[], d, .nil d, ?_, by simp⟩
      rw [hrun]
      exact .refl d
    · obtain ⟨written, rest, middle, e, after, rfl, hnames, hstores, hends, hdeliver⟩ :=
        deliver_cases hdry files d
      refine ⟨written, middle, hstores, ?_, ?_⟩
      · rw [runOn_snd hgenerates hdeliver]
        exact sameFiles_of_ends hends
      · intro f hf
        have hmem := List.mem_append_left rest hf
        exact ⟨⟨set, _, hgenerates, hmem⟩, confines_of_not_escapes hgenerates hmem (hnames f hf)⟩

/-- **Confinement**: the files that a run writes are generated files, and the name of each is a
    relative path without a part that leads upwards, so that the file lies strictly below the
    output directory. Nothing else on the disk changes. A name is refused exactly if it begins
    with a slash or has a part that leads upwards. -/
theorem runOn_writes_below_output (o : OfflineOptions) (d : Disk) :
    (∃ written middle, Stores d (o.writes written) middle ∧ SameFiles middle (o.runOn d).2 ∧
      ∀ f ∈ written, (∃ set files, o.Generates d set files ∧ f ∈ files) ∧
        o.Confines d f.name) ∧
    (∀ place, (o.runOn d).2.tree place ≠ d.tree place →
      ∃ set files f, o.Generates d set files ∧ f ∈ files ∧ o.Confines d f.name ∧
        place = d.resolve o.output ++ Disk.steps f.name) ∧
    ∀ name e, outputPath o.output name = .error e ↔ e = .pathTraversal name ∧
      (name.toList.head? = some '/' ∨ Path.upward ∈ name.toList.splitOn '/') := by
  obtain ⟨written, middle, hstores, hsame, hconfined⟩ := exists_writes o d
  refine ⟨⟨written, middle, hstores, hsame, hconfined⟩, ?_, ?_⟩
  · intro place hchanged
    rw [hsame.tree, hstores.tree] at hchanged
    -- A place to which no file is written does not change.
    have hwritten : ∃ w ∈ o.writes written, d.resolve w.1 = place := by
      refine Decidable.byContradiction fun hnone => hchanged ?_
      exact Disk.foldl_store_eq d (fun w hw heq => hnone ⟨w, hw, heq⟩) d.tree
    obtain ⟨w, hw, rfl⟩ := hwritten
    obtain ⟨f, hf, rfl⟩ := List.mem_map.mp hw
    obtain ⟨⟨set, files, hgenerates, hmem⟩, hbelow⟩ := hconfined f hf
    exact ⟨set, files, f, hgenerates, hmem, hbelow, hbelow.place⟩
  · intro name e
    rw [outputPath_eq_error_iff, Path.escapes_iff, and_comm]

end SchemaSummary
