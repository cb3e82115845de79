import SchemaSummary.Proofs.Command.Delivery

/-! # Refused names

  What a run leaves behind that ends at a name that it refuses.

  Names are looked at one after the other, each before its file is written. So the files before
  the refused name have been written by then, and they stay: a run ends without a trace only if it
  refuses the name of its first file.
-/

namespace SchemaSummary

open Disk (access Stores)

/-- A run says nothing exactly if it writes nothing. -/
theorem wroteLines_eq_empty_iff {o : OfflineOptions} {files : List GeneratedFile} :
    o.wroteLines files = "" ↔ files = [] := by
  cases files with
  | nil => exact iff_of_true rfl rfl
  | cons file files => simp

/-- A delivery that ends at a refused name has written the files before it. -/
theorem exists_of_deliver_refused {o : OfflineOptions} {d after : Disk}
    {files : List GeneratedFile} {text name : String} (hdry : o.dryRun = false)
    (h : (deliver access o files).run d = ((text, some (.pathTraversal name)), after)) :
    ∃ before file rest, files = before ++ file :: rest ∧
      (∀ f ∈ before, Path.escapes f.name.toList = false) ∧
      Path.escapes file.name.toList = true ∧ file.name = name ∧
      Stores d (o.writes before) after ∧ text = o.wroteLines before := by
  obtain ⟨before, left, middle, e, last, hfiles, hnames, hstores, hends, hdeliver⟩ :=
    deliver_cases hdry files d
  rw [h] at hdeliver
  cases hdeliver
  cases hends with
  | @refused file rest hescapes =>
    exact ⟨before, file, rest, hfiles, hnames, hescapes, rfl, hstores, rfl⟩
  | failed hname hfile =>
    -- A file that cannot be written is another reason to stop.
    obtain ⟨-, hwrite⟩ := sameFiles_of_writeFile hfile
    cases hwrite

/-- **Refused runs** keep what they have written. Of a run that ends at a refused name there stay
    the files before the first such name, and what was said about them; nothing stays exactly if
    that name is the first of all. -/
theorem runOn_of_refused {o : OfflineOptions} {d after : Disk} {set : DescriptorSet}
    {files : List GeneratedFile} {text name : String} (hdry : o.dryRun = false)
    (hgenerates : o.Generates d set files)
    (hrefused : (deliver access o files).run d = ((text, some (.pathTraversal name)), after)) :
    o.runOn d = (.failure text
      (logText o.verbosity (.started :: (set.request o.files o.parameter).events))
      { error := .pathTraversal name }, after) ∧
    ∃ before file rest, files = before ++ file :: rest ∧
      (∀ f ∈ before, Path.escapes f.name.toList = false) ∧
      Path.escapes file.name.toList = true ∧ file.name = name ∧
      Stores d (o.writes before) after ∧
      after.tree = (o.writes before).foldl d.store d.tree ∧
      text = o.wroteLines before ∧ (text = "" ↔ before = []) := by
  obtain ⟨⟨bytes, hread, hdecode⟩, hgenerate⟩ := hgenerates
  obtain ⟨before, file, rest, hfiles, hnames, hescapes, hname, hstores, rfl⟩ :=
    exists_of_deliver_refused hdry hrefused
  exact ⟨runOn_of_deliver_error hread hdecode hgenerate hrefused, before, file, rest, hfiles,
    hnames, hescapes, hname, hstores, hstores.tree, rfl, wroteLines_eq_empty_iff⟩

/-! ## A name that is refused late -/

namespace LateRefusal

/-- A descriptor set with the schema files `a.proto` and `../up.proto`, which declare nothing. -/
def bytes : List UInt8 :=
  [0x0a, 9, 0x0a, 7, 0x61, 0x2e, 0x70, 0x72, 0x6f, 0x74, 0x6f,
   0x0a, 13, 0x0a, 11, 0x2e, 0x2e, 0x2f, 0x75, 0x70, 0x2e, 0x70, 0x72, 0x6f, 0x74, 0x6f]

def set : DescriptorSet where
  files := [{ name := some "a.proto" }, { name := some "../up.proto" }]

def files : List GeneratedFile :=
  [⟨"a.yaml", "messages: []\nservices: []\n"⟩, ⟨"../up.yaml", "messages: []\nservices: []\n"⟩]

def disk : Disk where
  entries := [(["set"], .file bytes)]

def options : OfflineOptions where
  descriptorSet := "set"
  output := "out"

/-- The disk after the first file is written. -/
def written : Disk :=
  (disk.put ["out"] .directory).put ["out", "a.yaml"]
    (.file (Wire.utf8Bytes "messages: []\nservices: []\n"))

theorem generates : options.Generates disk set files := by
  have hread : disk.read "set" = .ok bytes := rfl
  have hdecode : DescriptorSet.decode bytes = .ok set := rfl
  exact ⟨⟨bytes, hread, hdecode⟩, rfl⟩

theorem deliver_refused : (deliver access options files).run disk =
    (("Wrote out/a.yaml\n", some (.pathTraversal "../up.yaml")), written) := by
  have hmade : (access.createDirectories "out").run disk =
      (.ok (), disk.put ["out"] .directory) := rfl
  have hstores : Stores disk (options.writes [files[0]]) written := .cons hmade rfl (.nil _)
  exact run_deliver_append rfl (by decide) hstores (.refused rfl)

end LateRefusal

open LateRefusal in
/-- A run that refuses its second name has written its first file and said so. -/
theorem runOn_lateRefusal :
    ∃ outcome, options.runOn disk = (outcome, written) ∧ outcome.exitCode = 1 ∧
      outcome.stderr =
        "Error: path traversal detected: '../up.yaml' would escape output directory\n" ∧
      outcome.stdout = Wire.utf8Bytes "Wrote out/a.yaml\n" ∧
      disk.tree ["out", "a.yaml"] = none ∧
      written.tree ["out", "a.yaml"] =
        some (Wire.utf8Bytes "messages: []\nservices: []\n") := by
  obtain ⟨⟨read, hread, hdecode⟩, hgenerate⟩ := generates
  have hrun := runOn_of_deliver_error hread hdecode hgenerate deliver_refused
  exact ⟨_, hrun, rfl, rfl, rfl, rfl, rfl⟩

open LateRefusal in
/-- What stays is all that comes before the refused name. -/
theorem written_of_lateRefusal :
    ∃ before file rest, files = before ++ file :: rest ∧ file.name = "../up.yaml" ∧
      Stores disk (options.writes before) written ∧ before ≠ [] := by
  obtain ⟨-, before, file, rest, hfiles, -, -, hname, hstores, -, -, hsilent⟩ :=
    runOn_of_refused rfl generates deliver_refused
  refine ⟨before, file, rest, hfiles, hname, hstores, ?_⟩
  rw [ne_eq, ← hsilent]
  decide

end SchemaSummary
