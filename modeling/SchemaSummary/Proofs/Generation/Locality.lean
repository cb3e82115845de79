import SchemaSummary.Generation.Generator
import SchemaSummary.Proofs.Generation.Selection
import SchemaSummary.Proofs.Generation.Sequence

/-! # Generation file by file

  What is generated for one schema file does not depend on what else is asked for. A run on
  several files succeeds where the run on each of them does, and has their results.
-/

namespace SchemaSummary

namespace Generator

/-- The generated file for one schema file. -/
def output (g : Generator) (f : FileDescriptor) : Except Error GeneratedFile :=
  (g.generateFile f).map (·.1)

theorem output_eq (g : Generator) (f : FileDescriptor) :
    g.output f =
      (g.config.outputStem f).bind fun stem => g.encoder.file f.path stem f.document := by
  rw [output, generateFile]
  cases hstem : g.config.outputStem f with
  | error e => rfl
  | ok stem =>
    cases hfile : g.encoder.file f.path stem f.document with
    | error e => simp [bind, Except.bind, Except.map, hfile]
    | ok file => simp [bind, Except.bind, Except.map, hfile]

/-- The counts of the documents have no part in the generated files. -/
theorem generate_eq (g : Generator) (q : Request) :
    g.generate q = q.select.bind fun files => files.mapM g.output := by
  rw [generate, run]
  cases q.select with
  | error e => rfl
  | ok files =>
    have houtputs : files.mapM g.output = (files.mapM g.generateFile).map (List.map (·.1)) :=
      mapM_map g.generateFile (·.1) files
    simp only [bind, Except.bind, houtputs]
    cases files.mapM g.generateFile <;> rfl

theorem generate_eq_ok_iff {g : Generator} {q : Request} {files : List GeneratedFile} :
    g.generate q = .ok files ↔
      (∀ n ∈ q.filesToGenerate, q.describes n = true) ∧
        q.selected.map g.output = files.map .ok := by
  rw [generate_eq, ← mapM_eq_ok_iff]
  constructor
  · intro h
    obtain ⟨selected, hselect, hfiles⟩ := bind_eq_ok_iff.mp h
    obtain ⟨hall, rfl⟩ := Request.select_eq_ok_iff.mp hselect
    exact ⟨hall, hfiles⟩
  · intro h
    rw [Request.select_eq_ok_iff.mpr ⟨h.1, rfl⟩]
    exact h.2

end Generator

/-! ## Requests for one file -/

/-- The request for one file out of what a request describes. -/
def Request.only (q : Request) (name : String) : Request := { q with filesToGenerate := [name] }

theorem Request.selected_only {q : Request} {name : String} {f : FileDescriptor}
    (h : q.descriptor? name = some f) : (q.only name).selected = [f] := by
  have hpath := descriptor?_path h
  have hmem (g : FileDescriptor) : g ∈ (q.only name).selected ↔ g = f := by
    rw [mem_selected_iff]
    constructor
    · intro hg
      have hname : g.path = name := by simpa [only] using hg.1
      have hfirst := hg.2
      rw [hname] at hfirst
      exact Option.some.inj (hfirst.symm.trans h)
    · intro hg
      rw [hg]
      exact ⟨by simp [only, hpath], by rw [hpath]; exact h⟩
  -- No name is selected twice, so there is room for one descriptor only.
  have hpair := pairwise_selected (q.only name)
  cases hsel : (q.only name).selected with
  | nil => rw [hsel] at hmem; simpa using (hmem f).mpr rfl
  | cons g gs =>
    rw [hsel] at hmem hpair
    obtain rfl := (hmem g).mp List.mem_cons_self
    cases gs with
    | nil => rfl
    | cons g' gs =>
      obtain rfl := (hmem g').mp (by simp)
      exact absurd ((List.pairwise_cons.mp hpair).1 g' List.mem_cons_self) (Nat.lt_irrefl _)

namespace Generator

/-- A request for one file gives the generated file of its first descriptor. -/
theorem generate_only_eq_ok_iff {g : Generator} {q : Request} {name : String}
    {files : List GeneratedFile} :
    g.generate (q.only name) = .ok files ↔
      ∃ f file, q.descriptor? name = some f ∧ g.output f = .ok file ∧ files = [file] := by
  have hdescribes : (∀ n ∈ (q.only name).filesToGenerate, (q.only name).describes n = true) ↔
      ∃ f, q.descriptor? name = some f := by
    simp only [Request.only, List.mem_singleton, forall_eq]
    exact Request.describes_iff
  rw [generate_eq_ok_iff, hdescribes]
  constructor
  · intro h
    obtain ⟨⟨f, hf⟩, hfiles⟩ := h
    rw [Request.selected_only hf] at hfiles
    cases files with
    | nil => cases hfiles
    | cons file files =>
      obtain ⟨hfile, hrest⟩ := List.cons.inj hfiles
      exact ⟨f, file, hf, hfile, by rw [List.map_eq_nil_iff.mp hrest.symm]⟩
  · intro h
    obtain ⟨f, file, hf, hfile, rfl⟩ := h
    exact ⟨⟨f, hf⟩, by rw [Request.selected_only hf]; simp [hfile]⟩

theorem exists_output_of_generate_only {g : Generator} {q : Request} {f : FileDescriptor}
    (hf : q.descriptor? f.path = some f)
    (h : ∃ files, g.generate (q.only f.path) = .ok files) : ∃ file, g.output f = .ok file := by
  obtain ⟨files, hfiles⟩ := h
  obtain ⟨f', file, hf', hfile, -⟩ := generate_only_eq_ok_iff.mp hfiles
  rw [hf] at hf'
  obtain rfl := Option.some.inj hf'
  exact ⟨file, hfile⟩

/-- A wanted file that is generated is generated on its own as well. -/
theorem exists_mem_of_generate {g : Generator} {q : Request} {files : List GeneratedFile}
    (h : g.generate q = .ok files) {name : String} (hname : name ∈ q.filesToGenerate) :
    ∃ f file, q.descriptor? name = some f ∧ g.output f = .ok file ∧ file ∈ files := by
  obtain ⟨hall, hfiles⟩ := generate_eq_ok_iff.mp h
  obtain ⟨f, hf⟩ := Request.describes_iff.mp (hall name hname)
  have hpath := Request.descriptor?_path hf
  have hmem : f ∈ q.selected := Request.mem_selected_iff.mpr ⟨hpath ▸ hname, hpath.symm ▸ hf⟩
  have hout : g.output f ∈ files.map Except.ok := hfiles ▸ List.mem_map_of_mem hmem
  obtain ⟨file, hfile, heq⟩ := List.mem_map.mp hout
  exact ⟨f, file, hf, heq.symm, hfile⟩

/-! ## Several files -/

open Request (mem_map_path_selected_iff)

/-- A run succeeds exactly if the run on each wanted file does. -/
theorem exists_generate_iff (g : Generator) (q : Request) :
    (∃ files, g.generate q = .ok files) ↔
      ∀ n ∈ q.filesToGenerate, ∃ files, g.generate (q.only n) = .ok files := by
  constructor
  · intro h n hn
    obtain ⟨files, hfiles⟩ := h
    obtain ⟨f, file, hf, hfile, -⟩ := exists_mem_of_generate hfiles hn
    exact ⟨[file], generate_only_eq_ok_iff.mpr ⟨f, file, hf, hfile, rfl⟩⟩
  · intro h
    have hall : ∀ n ∈ q.filesToGenerate, q.describes n = true := by
      intro n hn
      obtain ⟨files, hfiles⟩ := h n hn
      obtain ⟨f, -, hf, -⟩ := generate_only_eq_ok_iff.mp hfiles
      exact Request.describes_iff.mpr ⟨f, hf⟩
    have houtputs : ∀ f ∈ q.selected, ∃ file, g.output f = .ok file := by
      intro f hf
      -- A selected descriptor is the first one of a wanted name.
      obtain ⟨hwanted, hfirst⟩ := Request.mem_selected_iff.mp hf
      exact exists_output_of_generate_only hfirst (h f.path hwanted)
    obtain ⟨files, hfiles⟩ := exists_mapM_eq_ok houtputs
    exact ⟨files, generate_eq_ok_iff.mpr ⟨hall, mapM_eq_ok_iff.mp hfiles⟩⟩

/-- The files of a run are those of the runs on its selected files, in their order. -/
theorem map_generate_only_selected {g : Generator} {q : Request} {files : List GeneratedFile}
    (h : g.generate q = .ok files) :
    (q.selected.map FileDescriptor.path).map (fun n => g.generate (q.only n)) =
      files.map fun file => .ok [file] := by
  obtain ⟨-, hfiles⟩ := generate_eq_ok_iff.mp h
  -- Each run on one name gives the output of the selected descriptor with that name.
  have hsingle : ∀ f ∈ q.selected, g.generate (q.only f.path) =
      (g.output f).map fun file => [file] := by
    intro f hf
    obtain ⟨-, hfirst⟩ := Request.mem_selected_iff.mp hf
    have hout : g.output f ∈ files.map Except.ok := hfiles ▸ List.mem_map_of_mem hf
    obtain ⟨file, -, heq⟩ := List.mem_map.mp hout
    rw [← heq]
    exact generate_only_eq_ok_iff.mpr ⟨f, file, hfirst, heq.symm, rfl⟩
  calc (q.selected.map FileDescriptor.path).map (fun n => g.generate (q.only n))
      = q.selected.map fun f => (g.output f).map fun file => [file] := by
        rw [List.map_map]
        exact List.map_congr_left hsingle
    _ = (q.selected.map g.output).map (Except.map fun file => [file]) := by
        rw [List.map_map]
        rfl
    _ = files.map fun file => .ok [file] := by
        rw [hfiles, List.map_map]
        rfl

/-- Requests that describe a file alike have the same file generated for it. -/
theorem exists_common_file {g : Generator} {q q' : Request} {files files' : List GeneratedFile}
    {n : String} (h : g.generate q = .ok files) (h' : g.generate q' = .ok files')
    (hn : n ∈ q.filesToGenerate) (hn' : n ∈ q'.filesToGenerate)
    (heq : q.descriptor? n = q'.descriptor? n) :
    ∃ file, file ∈ files ∧ file ∈ files' ∧ g.generate (q.only n) = .ok [file] ∧
      g.generate (q'.only n) = .ok [file] := by
  obtain ⟨f, file, hf, hfile, hmem⟩ := exists_mem_of_generate h hn
  obtain ⟨f', file', hf', hfile', hmem'⟩ := exists_mem_of_generate h' hn'
  have hff' : f = f' := Option.some.inj (hf.symm.trans (heq.trans hf'))
  subst hff'
  have hsame : file = file' := Except.ok.inj (hfile.symm.trans hfile')
  subst hsame
  exact ⟨file, hmem, hmem', generate_only_eq_ok_iff.mpr ⟨f, file, hf, hfile, rfl⟩,
    generate_only_eq_ok_iff.mpr ⟨f, file, hf', hfile, rfl⟩⟩

/-- **A run is made of runs on single files.**

    * It succeeds exactly if the run on each wanted file does.
    * Its files are then those of the runs on single files, one for every wanted name, in the
      order in which the names are first described.
    * What is generated for a name is told by its first descriptor alone: any other request that
      has the same one gives the same file. -/
theorem generate_file_by_file (g : Generator) (q : Request) :
    ((∃ files, g.generate q = .ok files) ↔
        ∀ n ∈ q.filesToGenerate, ∃ files, g.generate (q.only n) = .ok files) ∧
      (∀ files, g.generate q = .ok files → ∃ names : List String,
        names.Nodup ∧ (∀ n, n ∈ names ↔ n ∈ q.filesToGenerate) ∧
          names.Pairwise (fun m n => (q.files.map FileDescriptor.path).idxOf m <
            (q.files.map FileDescriptor.path).idxOf n) ∧
          names.map (fun n => g.generate (q.only n)) = files.map fun file => .ok [file]) ∧
      (∀ (q' : Request) files files' n, g.generate q = .ok files → g.generate q' = .ok files' →
        n ∈ q.filesToGenerate → n ∈ q'.filesToGenerate → q.descriptor? n = q'.descriptor? n →
        ∃ file, file ∈ files ∧ file ∈ files' ∧ g.generate (q.only n) = .ok [file] ∧
          g.generate (q'.only n) = .ok [file]) := by
  refine ⟨exists_generate_iff g q, ?_, ?_⟩
  · intro files h
    obtain ⟨hall, -⟩ := generate_eq_ok_iff.mp h
    have hpair : (q.selected.map FileDescriptor.path).Pairwise fun m n =>
        (q.files.map FileDescriptor.path).idxOf m < (q.files.map FileDescriptor.path).idxOf n :=
      List.pairwise_map.mpr q.pairwise_selected
    refine ⟨q.selected.map FileDescriptor.path, ?_, mem_map_path_selected_iff hall, hpair,
      map_generate_only_selected h⟩
    -- Names that come strictly one after the other are different.
    refine hpair.imp ?_
    intro m n hlt heq
    rw [heq] at hlt
    exact Nat.lt_irrefl _ hlt
  · intro q' files files' n h h' hn hn' heq
    exact exists_common_file h h' hn hn' heq

end Generator

end SchemaSummary
