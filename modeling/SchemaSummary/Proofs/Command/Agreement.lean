import SchemaSummary.Plugin.Exchange
import SchemaSummary.Proofs.Command.Delivery
import SchemaSummary.Proofs.Generation.Failure

/-! # Runs by hand and runs as a plugin

  A run on a descriptor set does to the disk what a host would do with the response to the
  request for the same files. Where the response has an error the run fails with that error and
  leaves the disk as it is; where the response has files they are written in their order.
-/

namespace SchemaSummary

open Disk (access Stores)

/-! ## Responses -/

/-- A response has the files that are generated, unless it has the text of an error. -/
theorem respond_of_generate {q : Request} {files : List GeneratedFile}
    (h : generate q = .ok files) :
    (respond q).error = none ∧ (respond q).files = files.map GeneratedFile.toResponseFile := by
  unfold respond
  rw [h]
  exact ⟨rfl, rfl⟩

theorem error_respond_iff {q : Request} {t : String} :
    (respond q).error = some t ↔ ∃ e, generate q = .error e ∧ e.message = t := by
  unfold respond
  cases h : generate q with
  | ok files => simp [Response.ofOutcome]
  | error e => simp [Response.ofOutcome]

/-- The error of a request has no cause behind it. -/
theorem source?_of_refuses {q : Request} {e : Error} (h : Refuses q e) : e.source? = none := by
  cases h with
  | entry hentries hbefore hentry => rfl
  | clash hentries hall hclash => rfl
  | missing horder hnames hbefore hname => rfl
  | outside horder hnames hlast hmodule hselected hbefore hf => rfl

/-- An error without a cause is reported in one line. -/
theorem report_eq {e : Error} (h : e.source? = none) :
    Failure.report { error := e } = "Error: " ++ e.message ++ "\n" := by
  unfold Failure.report Failure.messages
  rw [h]
  exact String.append_empty

/-! ## Agreement -/

/-- The files of a response as a host writes them below the output directory. -/
def OfflineOptions.responseWrites (o : OfflineOptions) (a : Response) :
    List (String × List UInt8) :=
  a.files.map fun f => (o.target (f.name.getD ""), Wire.utf8Bytes (f.content.getD ""))

theorem responseWrites_of_generate {o : OfflineOptions} {q : Request}
    {files : List GeneratedFile} (h : generate q = .ok files) :
    o.responseWrites (respond q) = o.writes files := by
  unfold OfflineOptions.responseWrites OfflineOptions.writes
  rw [(respond_of_generate h).2, List.map_map]
  rfl

/-- The request that stands for a run on a descriptor set. -/
theorem eq_request {o : OfflineOptions} {set : DescriptorSet} {q : Request}
    (hfiles : q.files = set.files) (hparameter : q.parameter = o.parameter)
    (hnames : q.filesToGenerate =
      if o.files = [] then set.files.map FileDescriptor.path else o.files) :
    q = set.request o.files o.parameter := by
  cases q
  subst hfiles hparameter hnames
  unfold DescriptorSet.request
  simp only [List.isEmpty_iff]

/-- **A run by hand agrees with the plugin.** Take the request for the files that a run is asked
    for, with its parameter and with the files of its descriptor set.

    * If the response has the text of an error, the run leaves the disk as it is, says nothing and
      fails with that text.
    * If the response has files and their names are accepted, and if all directories and files can
      be written, the run says so of one file after the other. The files on the disk are then those
      of before, with each file of the response put at its path in turn. -/
theorem runOn_agrees_with_respond {o : OfflineOptions} {d : Disk} {bytes : List UInt8}
    {set : DescriptorSet} {q : Request} (hdry : o.dryRun = false)
    (hread : d.read o.descriptorSet = .ok bytes)
    (hdecode : DescriptorSet.decode bytes = .ok set)
    (hfiles : q.files = set.files) (hparameter : q.parameter = o.parameter)
    (hnames : q.filesToGenerate =
      if o.files = [] then set.files.map FileDescriptor.path else o.files) :
    (∀ t, (respond q).error = some t → ∃ outcome, o.runOn d = (outcome, d) ∧
        outcome.exitCode = 1 ∧ outcome.stdout = [] ∧
        outcome.stderr = logText o.verbosity (.started :: q.events) ++ ("Error: " ++ t ++ "\n")) ∧
      ((respond q).error = none →
        (∀ f ∈ (respond q).files, ∃ path, outputPath o.output (f.name.getD "") = .ok path) →
        ∀ after, Stores d (o.responseWrites (respond q)) after →
          ∃ outcome, o.runOn d = (outcome, after) ∧ outcome.exitCode = 0 ∧
            outcome.stdout = Wire.utf8Bytes (String.join
              ((o.responseWrites (respond q)).map fun w => "Wrote " ++ w.1 ++ "\n")) ∧
            after.tree = (o.responseWrites (respond q)).foldl d.store d.tree) := by
  obtain rfl := eq_request hfiles hparameter hnames
  constructor
  · intro t ht
    obtain ⟨e, hgenerate, rfl⟩ := error_respond_iff.mp ht
    have hrun := runOn_of_generate_error hread hdecode hgenerate
    have hreport := report_eq (source?_of_refuses (generate_eq_error_iff.mp hgenerate))
    refine ⟨_, hrun, rfl, rfl, ?_⟩
    show _ ++ Failure.report { error := e } = _
    rw [hreport]
  · intro hnone haccepted after hstores
    cases hgenerate : generate (set.request o.files o.parameter) with
    | error e =>
      have hsome := error_respond_iff.mpr ⟨e, hgenerate, rfl⟩
      rw [hnone] at hsome
      cases hsome
    | ok files =>
      have hwrites := responseWrites_of_generate (o := o) hgenerate
      rw [hwrites] at hstores ⊢
      have hescapes : ∀ f ∈ files, Path.escapes f.name.toList = false := by
        intro f hf
        have hmem : f.toResponseFile ∈ (respond (set.request o.files o.parameter)).files := by
          rw [(respond_of_generate hgenerate).2]
          exact List.mem_map_of_mem hf
        obtain ⟨path, hpath⟩ := haccepted _ hmem
        exact (outputPath_eq_ok_iff.mp hpath).1
      have hdeliver := run_deliver_append hdry hescapes hstores .finished
      rw [List.append_nil] at hdeliver
      refine ⟨_, runOn_of_deliver hread hdecode hgenerate hdeliver, rfl, ?_, hstores.tree⟩
      show Wire.utf8Bytes (o.wroteLines files) = _
      unfold OfflineOptions.wroteLines OfflineOptions.writes
      rw [List.map_map]
      rfl

/-! ## A run of two files -/

namespace TwoSchemas

/-- A descriptor set with the schema files `a.proto` and `x/b.proto`, which declare nothing. -/
def bytes : List UInt8 :=
  [0x0a, 9, 0x0a, 7, 0x61, 0x2e, 0x70, 0x72, 0x6f, 0x74, 0x6f,
   0x0a, 11, 0x0a, 9, 0x78, 0x2f, 0x62, 0x2e, 0x70, 0x72, 0x6f, 0x74, 0x6f]

def set : DescriptorSet where
  files := [{ name := some "a.proto" }, { name := some "x/b.proto" }]

def disk : Disk where
  entries := [(["set"], .file bytes)]

def options (names : List String) : OfflineOptions where
  descriptorSet := "set"
  files := names
  output := "out"

/-- The summary of a schema file that declares nothing. -/
def summary : List UInt8 := Wire.utf8Bytes "messages: []\nservices: []\n"

def firstMade : Disk := disk.put ["out"] .directory

def firstWritten : Disk := firstMade.put ["out", "a.yaml"] (.file summary)

def secondMade : Disk := firstWritten.put ["out", "x"] .directory

def secondWritten : Disk := secondMade.put ["out", "x", "b.yaml"] (.file summary)

end TwoSchemas

open TwoSchemas in
/-- Both files are written if all are asked for, and none if one that is missing is. -/
theorem runOn_twoSchemas :
    (∃ outcome, (options []).runOn disk = (outcome, secondWritten) ∧ outcome.exitCode = 0 ∧
        outcome.stdout = Wire.utf8Bytes "Wrote out/a.yaml\nWrote out/x/b.yaml\n" ∧
        secondWritten.tree = Function.update (Function.update disk.tree ["out", "a.yaml"]
          (some summary)) ["out", "x", "b.yaml"] (some summary)) ∧
      ∃ outcome, (options ["c.proto"]).runOn disk = (outcome, disk) ∧ outcome.exitCode = 1 ∧
        outcome.stdout = [] ∧
        outcome.stderr = "Error: no descriptor for generated file: c.proto\n" := by
  have hread : disk.read "set" = .ok bytes := rfl
  have hdecode : DescriptorSet.decode bytes = .ok set := rfl
  constructor
  · have haccepted : ∀ f ∈ (respond (set.request [] none)).files,
        ∃ path, outputPath "out" (f.name.getD "") = .ok path := by
      intro f hf
      have hmem : f ∈ [{ name := some "a.yaml", content := some "messages: []\nservices: []\n" },
          { name := some "x/b.yaml", content := some "messages: []\nservices: []\n" }] := hf
      simp only [List.mem_cons, List.not_mem_nil, or_false] at hmem
      rcases hmem with rfl | rfl
      · exact ⟨"out/a.yaml", rfl⟩
      · exact ⟨"out/x/b.yaml", rfl⟩
    have hfirst : (access.createDirectories "out").run disk = (.ok (), firstMade) := rfl
    have hsecond : (access.createDirectories "out/x").run firstWritten = (.ok (), secondMade) :=
      rfl
    have hstores : Stores disk [("out/a.yaml", summary), ("out/x/b.yaml", summary)]
        secondWritten := .cons hfirst rfl (.cons hsecond rfl (.nil secondWritten))
    have hagree := runOn_agrees_with_respond (o := options []) (q := set.request [] none) rfl
      hread hdecode rfl rfl rfl
    exact hagree.2 rfl haccepted secondWritten hstores
  · have hagree := runOn_agrees_with_respond (o := options ["c.proto"])
      (q := set.request ["c.proto"] none) rfl hread hdecode rfl rfl rfl
    exact hagree.1 "no descriptor for generated file: c.proto" rfl

end SchemaSummary
