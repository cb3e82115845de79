import SchemaSummary.Command.Offline
import SchemaSummary.Proofs.Disk.Tree

/-! # Delivery

  What a run on a descriptor set does to a disk. Generated files are taken one after the other,
  and the first that is refused or cannot be written ends the run. `deliver_cases` tells every
  delivery as a list of files that are written, one reason to stop, and what is said meanwhile.

  A run that does not come to deliver anything leaves the disk as it is.
-/

namespace SchemaSummary

open Disk (access Stores SameFiles)

/-! ## Paths of generated files -/

/-- The path to which the file of the given name goes. -/
def OfflineOptions.target (o : OfflineOptions) (name : String) : String :=
  String.ofList (Path.join o.output.toList name.toList)

theorem outputPath_eq_ok_iff {o : OfflineOptions} {name path : String} :
    outputPath o.output name = .ok path ↔
      Path.escapes name.toList = false ∧ path = o.target name := by
  unfold outputPath
  split
  · rename_i hescapes
    simp [hescapes]
  · rename_i hescapes
    simp only [Bool.not_eq_true] at hescapes
    simp [hescapes, OfflineOptions.target, eq_comm]

theorem outputPath_eq_error_iff {directory name : String} {e : Error} :
    outputPath directory name = .error e ↔
      Path.escapes name.toList = true ∧ e = .pathTraversal name := by
  unfold outputPath
  split
  · rename_i hescapes
    simp [hescapes, eq_comm]
  · rename_i hescapes
    simp [hescapes]

/-! ## One file -/

/-- A file is written behind the directories above it; the first operation that fails is
    reported. -/
theorem run_writeFile (d : Disk) (path content : String) :
    (writeFile access path content).run d =
      match (access.createDirectories (Disk.parentOf path)).run d with
      | (.error fault, made) => (.error (.directoryCreate (Disk.parentOf path) fault), made)
      | (.ok (), made) =>
        match made.write path (Wire.utf8Bytes content) with
        | .error fault => (.error (.fileWrite path fault), made)
        | .ok written => (.ok (), written) := by
  obtain ⟨⟨result, made⟩, hmade⟩ :
      ∃ p, (access.createDirectories (Disk.parentOf path)).run d = p := ⟨_, rfl⟩
  rw [hmade]
  unfold writeFile
  unfold Disk.parentOf at hmade ⊢
  rw [Disk.run_bind hmade]
  cases result with
  | error fault => rfl
  | ok u =>
    have hrun := Disk.run_write made path (Wire.utf8Bytes content)
    cases hwrite : made.write path (Wire.utf8Bytes content) with
    | error fault =>
      rw [hwrite] at hrun
      simp only [Disk.run_bind hrun, hwrite]
      rfl
    | ok written =>
      rw [hwrite] at hrun
      simp only [Disk.run_bind hrun, hwrite]
      rfl

/-- What ends a delivery at a file that cannot be written. -/
inductive WriteError : Error → Prop where
  | directory (path : String) (fault : DiskFault) : WriteError (.directoryCreate path fault)
  | file (path : String) (fault : DiskFault) : WriteError (.fileWrite path fault)

/-- A file that cannot be written changes no file. -/
theorem sameFiles_of_writeFile {d d' : Disk} {path content : String} {e : Error}
    (h : (writeFile access path content).run d = (.error e, d')) :
    SameFiles d d' ∧ WriteError e := by
  rw [run_writeFile] at h
  split at h
  · rename_i hmade
    cases h
    exact ⟨Disk.sameFiles_createDirectories hmade, .directory _ _⟩
  · rename_i hmade
    split at h
    · cases h
      exact ⟨Disk.sameFiles_createDirectories hmade, .file _ _⟩
    · cases h

/-- A file is written exactly if its directories can be made and then the file itself. -/
theorem writeFile_eq_ok_iff {d written : Disk} {path content : String} :
    (writeFile access path content).run d = (.ok (), written) ↔
      ∃ made, (access.createDirectories (Disk.parentOf path)).run d = (.ok (), made) ∧
        made.write path (Wire.utf8Bytes content) = .ok written := by
  rw [run_writeFile]
  constructor
  · intro h
    split at h
    · cases h
    · rename_i made hmade
      split at h
      · cases h
      · rename_i hwrite
        cases h
        exact ⟨made, hmade, hwrite⟩
  · intro h
    obtain ⟨made, hmade, hwrite⟩ := h
    rw [hmade]
    simp only [hwrite]

/-! ## All files -/

/-- The files as they are written: their paths and contents. -/
def OfflineOptions.writes (o : OfflineOptions) (files : List GeneratedFile) :
    List (String × List UInt8) :=
  files.map fun f => (o.target f.name, Wire.utf8Bytes f.content)

/-- What is said about files that are written. -/
def OfflineOptions.wroteLines (o : OfflineOptions) (files : List GeneratedFile) : String :=
  String.join (files.map fun f => "Wrote " ++ o.target f.name ++ "\n")

@[simp] theorem OfflineOptions.wroteLines_cons (o : OfflineOptions) (file : GeneratedFile)
    (files : List GeneratedFile) : o.wroteLines (file :: files) =
      "Wrote " ++ o.target file.name ++ "\n" ++ o.wroteLines files := String.join_cons

/-- How a delivery ends that has left the given disk and these files to deliver. -/
inductive Ends (o : OfflineOptions) (d : Disk) : List GeneratedFile → Option Error → Disk → Prop
    where
  /-- No file is left. -/
  | finished : Ends o d [] none d
  /-- The name of the next file is refused. -/
  | refused {file : GeneratedFile} {rest : List GeneratedFile}
      (hname : Path.escapes file.name.toList = true) :
      Ends o d (file :: rest) (some (.pathTraversal file.name)) d
  /-- The next file cannot be written. -/
  | failed {file : GeneratedFile} {rest : List GeneratedFile} {e : Error} {after : Disk}
      (hname : Path.escapes file.name.toList = false)
      (hfile : (writeFile access (o.target file.name) file.content).run d = (.error e, after)) :
      Ends o d (file :: rest) (some e) after

/-- What ends a delivery changes no file. -/
theorem sameFiles_of_ends {o : OfflineOptions} {d after : Disk} {files : List GeneratedFile}
    {e : Option Error} (h : Ends o d files e after) : SameFiles d after := by
  cases h with
  | finished => exact .refl d
  | refused hname => exact .refl d
  | failed hname hfile => exact (sameFiles_of_writeFile hfile).1

section Writing

variable {o : OfflineOptions} (hdry : o.dryRun = false)

include hdry

/-- A file that is written leaves the rest to deliver. -/
theorem run_deliver_cons {file : GeneratedFile} {d written after : Disk}
    {files : List GeneratedFile} {text : String} {e : Option Error}
    (hname : Path.escapes file.name.toList = false)
    (hfile : (writeFile access (o.target file.name) file.content).run d = (.ok (), written))
    (hrest : (deliver access o files).run written = ((text, e), after)) :
    (deliver access o (file :: files)).run d =
      (("Wrote " ++ o.target file.name ++ "\n" ++ text, e), after) := by
  have hpath : outputPath o.output file.name = .ok (o.target file.name) :=
    outputPath_eq_ok_iff.mpr ⟨hname, rfl⟩
  unfold deliver
  simp only [hpath, hdry, Bool.false_eq_true, if_false]
  rw [Disk.run_bind hfile]
  simp only [Disk.run_bind hrest, OfflineOptions.notice, hdry, Bool.false_eq_true, if_false]
  rfl

/-- A delivery ends at the first file that stops it. -/
theorem run_deliver_of_ends {d after : Disk} {files : List GeneratedFile} {e : Option Error}
    (h : Ends o d files e after) : (deliver access o files).run d = (("", e), after) := by
  unfold deliver
  cases h with
  | finished => rfl
  | @refused file rest hname =>
    have hpath : outputPath o.output file.name = .error (.pathTraversal file.name) :=
      outputPath_eq_error_iff.mpr ⟨hname, rfl⟩
    simp only [hpath]
    rfl
  | @failed file rest e after hname hfile =>
    have hpath : outputPath o.output file.name = .ok (o.target file.name) :=
      outputPath_eq_ok_iff.mpr ⟨hname, rfl⟩
    simp only [hpath, hdry, Bool.false_eq_true, if_false]
    rw [Disk.run_bind hfile]
    rfl

/-- Files that are written come before what ends the delivery. -/
theorem run_deliver_append {d middle after : Disk} {written rest : List GeneratedFile}
    {e : Option Error} (hnames : ∀ f ∈ written, Path.escapes f.name.toList = false)
    (hstores : Stores d (o.writes written) middle) (hends : Ends o middle rest e after) :
    (deliver access o (written ++ rest)).run d = ((o.wroteLines written, e), after) := by
  induction written generalizing d with
  | nil =>
    cases hstores
    exact run_deliver_of_ends hdry hends
  | cons file written ih =>
    cases hstores with
    | cons hmade hwritten hrest =>
      have hfile := writeFile_eq_ok_iff.mpr ⟨_, hmade, hwritten⟩
      have hnext := ih (fun f hf => hnames f (List.mem_cons_of_mem _ hf)) hrest
      rw [o.wroteLines_cons]
      exact run_deliver_cons hdry (hnames file List.mem_cons_self) hfile hnext

/-- **Every delivery** writes some of the files, from the first one on, and then ends. -/
theorem deliver_cases (files : List GeneratedFile) (d : Disk) :
    ∃ written rest middle e after, files = written ++ rest ∧
      (∀ f ∈ written, Path.escapes f.name.toList = false) ∧
      Stores d (o.writes written) middle ∧ Ends o middle rest e after ∧
      (deliver access o files).run d = ((o.wroteLines written, e), after) := by
  suffices h : ∃ written rest middle e after, files = written ++ rest ∧
      (∀ f ∈ written, Path.escapes f.name.toList = false) ∧
      Stores d (o.writes written) middle ∧ Ends o middle rest e after by
    obtain ⟨written, rest, middle, e, after, rfl, hnames, hstores, hends⟩ := h
    exact ⟨written, rest, middle, e, after, rfl, hnames, hstores, hends,
      run_deliver_append hdry hnames hstores hends⟩
  induction files generalizing d with
  | nil => exact ⟨[], [], d, none, d, rfl, by simp, .nil d, .finished⟩
  | cons file files ih =>
    by_cases hname : Path.escapes file.name.toList = true
    · exact ⟨[], file :: files, d, _, d, rfl, by simp, .nil d, .refused hname⟩
    · rw [Bool.not_eq_true] at hname
      obtain ⟨⟨result, next⟩, hfile⟩ :
          ∃ p, (writeFile access (o.target file.name) file.content).run d = p := ⟨_, rfl⟩
      cases result with
      | error e => exact ⟨[], file :: files, d, _, next, rfl, by simp, .nil d, .failed hname hfile⟩
      | ok u =>
        obtain ⟨made, hmade, hwritten⟩ := writeFile_eq_ok_iff.mp hfile
        obtain ⟨written, rest, middle, e, after, rfl, hnames, hstores, hends⟩ := ih next
        refine ⟨file :: written, rest, middle, e, after, rfl, ?_, .cons hmade hwritten hstores,
          hends⟩
        exact List.forall_mem_cons.mpr ⟨hname, hnames⟩

end Writing

/-! ## Runs on a disk -/

/-- A run on a descriptor set, on a disk: what it leaves behind, and the disk afterwards. -/
def OfflineOptions.runOn (o : OfflineOptions) (d : Disk) : Outcome × Disk :=
  (runOffline access o).run d

section Run

variable {o : OfflineOptions} {d : Disk}

theorem run_read {path : String} {result : Except DiskFault (List UInt8)}
    (h : d.read path = result) : (access.read path).run d = (result, d) := by
  rw [← h]
  rfl

/-- A descriptor set that cannot be read ends the run. -/
theorem runOn_of_read_error {fault : DiskFault} (hread : d.read o.descriptorSet = .error fault) :
    o.runOn d = (.failure "" (logText o.verbosity [.started])
      { error := .fileRead o.descriptorSet fault }, d) := by
  unfold OfflineOptions.runOn runOffline
  rw [Disk.run_bind (run_read hread)]
  rfl

variable {bytes : List UInt8} (hread : d.read o.descriptorSet = .ok bytes)

include hread

/-- What is read is decoded next. -/
theorem runOn_of_decode_error {fault : Wire.DecodeError}
    (hdecode : DescriptorSet.decode bytes = .error fault) :
    o.runOn d = (.failure "" (logText o.verbosity [.started])
      { attempt := some ("Failed to parse descriptor set: " ++ o.descriptorSet)
        error := .requestDecode fault }, d) := by
  unfold OfflineOptions.runOn runOffline
  simp only [Disk.run_bind (run_read hread), hdecode]
  rfl

variable {set : DescriptorSet} (hdecode : DescriptorSet.decode bytes = .ok set)

include hdecode

/-- An error of generation ends the run before anything is delivered. -/
theorem runOn_of_generate_error {e : Error}
    (hgenerate : generate (set.request o.files o.parameter) = .error e) :
    o.runOn d = (.failure ""
      (logText o.verbosity (.started :: (set.request o.files o.parameter).events))
      { error := e }, d) := by
  unfold OfflineOptions.runOn runOffline
  simp only [Disk.run_bind (run_read hread), hdecode, hgenerate]
  rfl

variable {files : List GeneratedFile}
  (hgenerate : generate (set.request o.files o.parameter) = .ok files)

include hgenerate

/-- A delivery that fails is a run that fails. -/
theorem runOn_of_deliver_error {text : String} {e : Error} {after : Disk}
    (hdeliver : (deliver access o files).run d = ((text, some e), after)) :
    o.runOn d = (.failure text
      (logText o.verbosity (.started :: (set.request o.files o.parameter).events))
      { error := e }, after) := by
  unfold OfflineOptions.runOn runOffline
  simp only [Disk.run_bind (run_read hread), hdecode, hgenerate, Disk.run_bind hdeliver]
  rfl

/-- A delivery of all files is a run that succeeds. -/
theorem runOn_of_deliver {text : String} {after : Disk}
    (hdeliver : (deliver access o files).run d = ((text, none), after)) :
    o.runOn d = (.success text
      (logText o.verbosity (.started :: (set.request o.files o.parameter).events ++
        [.delivered files.length o.descriptorSet])), after) := by
  unfold OfflineOptions.runOn runOffline
  simp only [Disk.run_bind (run_read hread), hdecode, hgenerate, Disk.run_bind hdeliver]
  rfl

end Run

/-- A run comes to deliver the given files, which are generated from the given set. -/
structure OfflineOptions.Generates (o : OfflineOptions) (d : Disk) (set : DescriptorSet)
    (files : List GeneratedFile) : Prop where
  reads : ∃ bytes, d.read o.descriptorSet = .ok bytes ∧ DescriptorSet.decode bytes = .ok set
  generates : generate (set.request o.files o.parameter) = .ok files

/-- A run that does not come to deliver anything fails and leaves the disk as it is. -/
theorem runOn_or_generates (o : OfflineOptions) (d : Disk) :
    (∃ outcome, o.runOn d = (outcome, d) ∧ outcome.exitCode = 1 ∧ outcome.stdout = []) ∨
      ∃ set files, o.Generates d set files := by
  cases hread : d.read o.descriptorSet with
  | error fault => exact .inl ⟨_, runOn_of_read_error hread, rfl, rfl⟩
  | ok bytes =>
    cases hdecode : DescriptorSet.decode bytes with
    | error fault => exact .inl ⟨_, runOn_of_decode_error hread hdecode, rfl, rfl⟩
    | ok set =>
      cases hgenerate : generate (set.request o.files o.parameter) with
      | error e => exact .inl ⟨_, runOn_of_generate_error hread hdecode hgenerate, rfl, rfl⟩
      | ok files => exact .inr ⟨set, files, ⟨bytes, hread, hdecode⟩, hgenerate⟩

/-- The disk that a delivery leaves is the one that the run leaves. -/
theorem runOn_snd {o : OfflineOptions} {d after : Disk} {set : DescriptorSet}
    {files : List GeneratedFile} {said : String × Option Error} (h : o.Generates d set files)
    (hdeliver : (deliver access o files).run d = (said, after)) : (o.runOn d).2 = after := by
  obtain ⟨⟨bytes, hread, hdecode⟩, hgenerate⟩ := h
  obtain ⟨text, e⟩ := said
  cases e with
  | none => rw [runOn_of_deliver hread hdecode hgenerate hdeliver]
  | some e => rw [runOn_of_deliver_error hread hdecode hgenerate hdeliver]

end SchemaSummary
