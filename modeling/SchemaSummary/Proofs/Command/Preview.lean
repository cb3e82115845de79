import SchemaSummary.Proofs.Command.Refusal

/-! # Dry runs

  What a dry run tells of the run that it stands for.

  Up to the first refused name both runs do the same except for writing. So a dry run, which leaves
  the disk alone, foretells everything but errors of the disk.

    * What hinders a dry run also hinders the real one, unless that comes to an end before, at a
      file that it cannot write.
    * Where the real run succeeds so does a dry one, and it names the same paths.
-/

namespace SchemaSummary

open Disk (access)

/-! ## Files without their contents -/

/-- How a delivery ends at these files as far as their names tell. -/
inductive EndsByName (o : OfflineOptions) : List GeneratedFile → Option Error → Prop
  /-- No file is left. -/
  | finished : EndsByName o [] none
  /-- The name of the next file is refused. -/
  | refused {file : GeneratedFile} {rest : List GeneratedFile} {e : Error}
      (hfile : outputPath o.output file.name = .error e) : EndsByName o (file :: rest) (some e)

/-- Whether the name of a file is accepted. -/
def OfflineOptions.Accepts (o : OfflineOptions) (file : GeneratedFile) : Prop :=
  ∃ path, outputPath o.output file.name = .ok path

theorem OfflineOptions.accepts_iff {o : OfflineOptions} {file : GeneratedFile} :
    o.Accepts file ↔ Path.escapes file.name.toList = false := by
  simp [Accepts, outputPath_eq_ok_iff]

/-- Some files are accepted, from the first one on, before names end the delivery. -/
theorem exists_endsByName (o : OfflineOptions) (files : List GeneratedFile) :
    ∃ accepted rest e, files = accepted ++ rest ∧ (∀ f ∈ accepted, o.Accepts f) ∧
      EndsByName o rest e := by
  induction files with
  | nil => exact ⟨[], [], none, rfl, by simp, .finished⟩
  | cons file files ih =>
    cases hfile : outputPath o.output file.name with
    | error e => exact ⟨[], file :: files, some e, rfl, by simp, .refused hfile⟩
    | ok path =>
      obtain ⟨accepted, rest, e, rfl, haccepted, hends⟩ := ih
      refine ⟨file :: accepted, rest, e, rfl, ?_, hends⟩
      exact List.forall_mem_cons.mpr ⟨⟨path, hfile⟩, haccepted⟩

/-- What ends a delivery by name does so on every disk. -/
theorem EndsByName.ends {o : OfflineOptions} {files : List GeneratedFile} {e : Option Error}
    (h : EndsByName o files e) (d : Disk) : Ends o d files e d := by
  cases h with
  | finished => exact .finished
  | refused hfile =>
    obtain ⟨hescapes, rfl⟩ := outputPath_eq_error_iff.mp hfile
    exact .refused hescapes

/-! ## Deliveries -/

/-- What is said about files that are delivered. -/
def OfflineOptions.notices (o : OfflineOptions) (files : List GeneratedFile) : String :=
  String.join (files.map fun f => o.notice (o.target f.name) f.content)

@[simp] theorem OfflineOptions.notices_cons (o : OfflineOptions) (file : GeneratedFile)
    (files : List GeneratedFile) : o.notices (file :: files) =
      o.notice (o.target file.name) file.content ++ o.notices files := String.join_cons

/-- A dry run comes as far as names allow. -/
theorem run_deliver_of_endsByName {o : OfflineOptions} (hdry : o.dryRun = true)
    {accepted rest : List GeneratedFile} {e : Option Error}
    (haccepted : ∀ f ∈ accepted, o.Accepts f) (hends : EndsByName o rest e) (d : Disk) :
    (deliver access o (accepted ++ rest)).run d = ((o.notices accepted, e), d) := by
  induction accepted with
  | nil =>
    unfold deliver
    cases hends with
    | finished => rfl
    | refused hfile =>
      simp only [List.nil_append, hfile]
      rfl
  | cons file accepted ih =>
    rw [List.forall_mem_cons] at haccepted
    obtain ⟨⟨path, hpath⟩, hrest⟩ := haccepted
    obtain ⟨-, rfl⟩ := outputPath_eq_ok_iff.mp hpath
    have hpure : (pure (.ok ()) : StateM Disk (Except Error Unit)).run d = (.ok (), d) := rfl
    rw [List.cons_append, o.notices_cons]
    unfold deliver
    -- What stands in for writing does nothing, so the rest meets the same disk.
    simp only [hpath, hdry, if_true]
    rw [Disk.run_bind hpure]
    simp only [Disk.run_bind (ih hrest)]
    rfl

/-- A run that writes comes as far as names allow, unless there is a file that it cannot write. -/
theorem run_deliver_or_writeError {o : OfflineOptions} (hdry : o.dryRun = false)
    {accepted rest : List GeneratedFile} {e : Option Error}
    (haccepted : ∀ f ∈ accepted, o.Accepts f) (hends : EndsByName o rest e) (d : Disk) :
    (∃ after, (deliver access o (accepted ++ rest)).run d =
        ((o.wroteLines accepted, e), after)) ∨
      ∃ written file left fault after, accepted = written ++ file :: left ∧ WriteError fault ∧
        (deliver access o (accepted ++ rest)).run d =
          ((o.wroteLines written, some fault), after) := by
  -- On the accepted files, for all disks: every file is written on the disk that the last one left.
  induction accepted generalizing d with
  | nil => exact .inl ⟨d, run_deliver_of_ends hdry (hends.ends d)⟩
  | cons file accepted ih =>
    rw [List.forall_mem_cons] at haccepted
    obtain ⟨hfile, hrest⟩ := haccepted
    rw [OfflineOptions.accepts_iff] at hfile
    obtain ⟨⟨result, next⟩, hwrite⟩ :
        ∃ p, (writeFile access (o.target file.name) file.content).run d = p := ⟨_, rfl⟩
    cases result with
    | error fault =>
      right
      exact ⟨[], file, accepted, fault, next, rfl, (sameFiles_of_writeFile hwrite).2,
        run_deliver_of_ends hdry (.failed hfile hwrite)⟩
    | ok u =>
      rcases ih hrest next with
        ⟨after, hall⟩ | ⟨written, stuck, left, fault, after, rfl, hfault, hsome⟩
      · left
        rw [o.wroteLines_cons]
        exact ⟨after, run_deliver_cons hdry hfile hwrite hall⟩
      · right
        refine ⟨file :: written, stuck, left, fault, after, rfl, hfault, ?_⟩
        rw [o.wroteLines_cons]
        exact run_deliver_cons hdry hfile hwrite hsome

/-! ## Hindrances -/

/-- What hinders a run, whether it writes or not: the files that come before it, the events up to
    there, and how it is reported. -/
inductive Hindered (o : OfflineOptions) (d : Disk) :
    List GeneratedFile → List Event → Failure → Prop
  /-- The descriptor set cannot be read. -/
  | unread {fault : DiskFault} (hread : d.read o.descriptorSet = .error fault) :
      Hindered o d [] [.started] { error := .fileRead o.descriptorSet fault }
  /-- What is read is no descriptor set. -/
  | undecoded {bytes : List UInt8} {fault : Wire.DecodeError}
      (hread : d.read o.descriptorSet = .ok bytes)
      (hdecode : DescriptorSet.decode bytes = .error fault) :
      Hindered o d [] [.started]
        { attempt := some ("Failed to parse descriptor set: " ++ o.descriptorSet)
          error := .requestDecode fault }
  /-- Nothing can be generated. -/
  | ungenerated {bytes : List UInt8} {set : DescriptorSet} {e : Error}
      (hread : d.read o.descriptorSet = .ok bytes) (hdecode : DescriptorSet.decode bytes = .ok set)
      (hgenerate : generate (set.request o.files o.parameter) = .error e) :
      Hindered o d [] (.started :: (set.request o.files o.parameter).events) { error := e }
  /-- The name of a file is refused, and it is the first one. -/
  | refused {set : DescriptorSet} {before after : List GeneratedFile} {file : GeneratedFile}
      {e : Error} (hgenerates : o.Generates d set (before ++ file :: after))
      (hbefore : ∀ f ∈ before, o.Accepts f) (hfile : outputPath o.output file.name = .error e) :
      Hindered o d before (.started :: (set.request o.files o.parameter).events) { error := e }

/-- Nothing hinders a run on these files. -/
structure Unhindered (o : OfflineOptions) (d : Disk) (set : DescriptorSet)
    (files : List GeneratedFile) : Prop where
  generates : o.Generates d set files
  accepts : ∀ f ∈ files, o.Accepts f

theorem hindered_or_unhindered (o : OfflineOptions) (d : Disk) :
    (∃ before events failure, Hindered o d before events failure) ∨
      ∃ set files, Unhindered o d set files := by
  cases hread : d.read o.descriptorSet with
  | error fault => exact .inl ⟨_, _, _, .unread hread⟩
  | ok bytes =>
    cases hdecode : DescriptorSet.decode bytes with
    | error fault => exact .inl ⟨_, _, _, .undecoded hread hdecode⟩
    | ok set =>
      cases hgenerate : generate (set.request o.files o.parameter) with
      | error e => exact .inl ⟨_, _, _, .ungenerated hread hdecode hgenerate⟩
      | ok files =>
        have hgenerates : o.Generates d set files := ⟨⟨bytes, hread, hdecode⟩, hgenerate⟩
        obtain ⟨accepted, rest, e, rfl, haccepted, hends⟩ := exists_endsByName o files
        cases hends with
        | finished =>
          rw [List.append_nil] at hgenerates
          exact .inr ⟨set, accepted, hgenerates, haccepted⟩
        | refused hfile => exact .inl ⟨_, _, _, .refused hgenerates haccepted hfile⟩

/-- A run is hindered for one of four reasons. -/
theorem exists_hindered_iff {o : OfflineOptions} {d : Disk} :
    (∃ before events failure, Hindered o d before events failure) ↔
      (∃ fault, d.read o.descriptorSet = .error fault) ∨
      (∃ bytes fault, d.read o.descriptorSet = .ok bytes ∧
        DescriptorSet.decode bytes = .error fault) ∨
      (∃ bytes set e, d.read o.descriptorSet = .ok bytes ∧ DescriptorSet.decode bytes = .ok set ∧
        generate (set.request o.files o.parameter) = .error e) ∨
      ∃ set files, o.Generates d set files ∧
        ∃ f ∈ files, ∃ e, outputPath o.output f.name = .error e := by
  constructor
  · intro h
    obtain ⟨before, events, failure, h⟩ := h
    cases h with
    | unread hread => exact .inl ⟨_, hread⟩
    | undecoded hread hdecode => exact .inr (.inl ⟨_, _, hread, hdecode⟩)
    | ungenerated hread hdecode hgenerate =>
      exact .inr (.inr (.inl ⟨_, _, _, hread, hdecode, hgenerate⟩))
    | refused hgenerates hbefore hfile =>
      exact .inr (.inr (.inr ⟨_, _, hgenerates, _, by simp, _, hfile⟩))
  · intro h
    rcases h with ⟨fault, hread⟩ | ⟨bytes, fault, hread, hdecode⟩ |
      ⟨bytes, set, e, hread, hdecode, hgenerate⟩ | ⟨set, files, hgenerates, f, hf, e, hfile⟩
    · exact ⟨_, _, _, .unread hread⟩
    · exact ⟨_, _, _, .undecoded hread hdecode⟩
    · exact ⟨_, _, _, .ungenerated hread hdecode hgenerate⟩
    · obtain ⟨accepted, rest, e', rfl, haccepted, hends⟩ := exists_endsByName o files
      cases hends with
      | refused hrefused => exact ⟨_, _, _, .refused hgenerates haccepted hrefused⟩
      | finished =>
        -- Without a file at which names end the delivery, the refused one would be accepted.
        rw [List.append_nil] at hf
        obtain ⟨path, hpath⟩ := haccepted f hf
        rw [hfile] at hpath
        cases hpath

/-! ## Runs -/

section Run

variable {o : OfflineOptions} {d : Disk} {before : List GeneratedFile} {events : List Event}
  {failure : Failure}

/-- What hinders a dry run is what it reports. -/
theorem runOn_of_hindered (hdry : o.dryRun = true) (h : Hindered o d before events failure) :
    o.runOn d = (.failure (o.notices before) (logText o.verbosity events) failure, d) := by
  cases h with
  | unread hread => exact runOn_of_read_error hread
  | undecoded hread hdecode => exact runOn_of_decode_error hread hdecode
  | ungenerated hread hdecode hgenerate => exact runOn_of_generate_error hread hdecode hgenerate
  | refused hgenerates hbefore hfile =>
    obtain ⟨⟨bytes, hread, hdecode⟩, hgenerate⟩ := hgenerates
    exact runOn_of_deliver_error hread hdecode hgenerate
      (run_deliver_of_endsByName hdry hbefore (.refused hfile) d)

/-- A run that writes reports it as well, unless there is a file that it cannot write. -/
theorem runOn_of_hindered_or_writeError (hdry : o.dryRun = false)
    (h : Hindered o d before events failure) :
    (o.runOn d).1 = .failure (o.wroteLines before) (logText o.verbosity events) failure ∨
      ∃ written file left fault, before = written ++ file :: left ∧ WriteError fault ∧
        (o.runOn d).1 =
          .failure (o.wroteLines written) (logText o.verbosity events) { error := fault } := by
  cases h with
  | unread hread =>
    rw [runOn_of_read_error hread]
    exact .inl rfl
  | undecoded hread hdecode =>
    rw [runOn_of_decode_error hread hdecode]
    exact .inl rfl
  | ungenerated hread hdecode hgenerate =>
    rw [runOn_of_generate_error hread hdecode hgenerate]
    exact .inl rfl
  | refused hgenerates hbefore hfile =>
    obtain ⟨⟨bytes, hread, hdecode⟩, hgenerate⟩ := hgenerates
    rcases run_deliver_or_writeError hdry hbefore (.refused hfile) d with
      ⟨after, hall⟩ | ⟨written, stuck, left, fault, after, hsplit, hfault, hsome⟩
    · left
      rw [runOn_of_deliver_error hread hdecode hgenerate hall]
    · right
      refine ⟨written, stuck, left, fault, hsplit, hfault, ?_⟩
      rw [runOn_of_deliver_error hread hdecode hgenerate hsome]

variable {set : DescriptorSet} {files : List GeneratedFile}

/-- A dry run that nothing hinders succeeds. -/
theorem runOn_of_unhindered (hdry : o.dryRun = true) (h : Unhindered o d set files) :
    o.runOn d = (.success (o.notices files)
      (logText o.verbosity (.started :: (set.request o.files o.parameter).events ++
        [.delivered files.length o.descriptorSet])), d) := by
  obtain ⟨⟨⟨bytes, hread, hdecode⟩, hgenerate⟩, haccepts⟩ := h
  have hdeliver := run_deliver_of_endsByName hdry haccepts .finished d
  rw [List.append_nil] at hdeliver
  exact runOn_of_deliver hread hdecode hgenerate hdeliver

/-- A dry run fails exactly if something hinders it. -/
theorem exitCode_ne_zero_iff (hdry : o.dryRun = true) : (o.runOn d).1.exitCode ≠ 0 ↔
    ∃ before events failure, Hindered o d before events failure := by
  constructor
  · intro hexit
    rcases hindered_or_unhindered o d with hhindered | ⟨set, files, hfiles⟩
    · exact hhindered
    · rw [runOn_of_unhindered hdry hfiles] at hexit
      exact absurd rfl hexit
  · intro h
    obtain ⟨before, events, failure, hhindered⟩ := h
    rw [runOn_of_hindered hdry hhindered]
    exact Nat.one_ne_zero

/-- A dry run leaves the disk as it is, whether it succeeds or not. -/
theorem runOn_snd_of_dryRun (hdry : o.dryRun = true) : (o.runOn d).2 = d := by
  rcases hindered_or_unhindered o d with ⟨_, _, _, hhindered⟩ | ⟨set, files, hfiles⟩
  · rw [runOn_of_hindered hdry hhindered]
  · rw [runOn_of_unhindered hdry hfiles]

/-- A run that writes and succeeds has written all files, and nothing hinders it. -/
theorem unhindered_of_exitCode (hdry : o.dryRun = false) (h : (o.runOn d).1.exitCode = 0) :
    ∃ set files, Unhindered o d set files ∧
      (o.runOn d).1.stdout = Wire.utf8Bytes (o.wroteLines files) := by
  rcases hindered_or_unhindered o d with ⟨before, events, failure, hhindered⟩ | ⟨set, files, hfiles⟩
  · -- However a hindered run ends, it fails.
    rcases runOn_of_hindered_or_writeError hdry hhindered with hrun | ⟨_, _, _, _, -, -, hrun⟩
    · rw [hrun] at h
      cases h
    · rw [hrun] at h
      cases h
  · refine ⟨set, files, hfiles, ?_⟩
    obtain ⟨⟨⟨bytes, hread, hdecode⟩, hgenerate⟩, haccepts⟩ := hfiles
    have hdeliver := run_deliver_or_writeError hdry haccepts .finished d
    rw [List.append_nil] at hdeliver
    rcases hdeliver with ⟨after, hall⟩ | ⟨written, stuck, left, fault, after, -, -, hsome⟩
    · rw [runOn_of_deliver hread hdecode hgenerate hall]
      rfl
    · rw [runOn_of_deliver_error hread hdecode hgenerate hsome] at h
      cases h

end Run

/-! ## Two runs -/

/-- The same run, dry or not, with the given verbosity. -/
def OfflineOptions.asRun (o : OfflineOptions) (dryRun : Bool) (verbosity : Nat) : OfflineOptions :=
  { o with dryRun, verbosity }

section AsRun

variable {o : OfflineOptions} {d : Disk} {set : DescriptorSet} {before files : List GeneratedFile}
  {events : List Event} {failure : Failure}

theorem OfflineOptions.Generates.asRun (h : o.Generates d set files) (dryRun : Bool)
    (verbosity : Nat) : (o.asRun dryRun verbosity).Generates d set files :=
  ⟨h.reads, h.generates⟩

theorem Unhindered.asRun (h : Unhindered o d set files) (dryRun : Bool) (verbosity : Nat) :
    Unhindered (o.asRun dryRun verbosity) d set files :=
  ⟨h.generates.asRun dryRun verbosity, h.accepts⟩

theorem Hindered.asRun (h : Hindered o d before events failure) (dryRun : Bool)
    (verbosity : Nat) : Hindered (o.asRun dryRun verbosity) d before events failure := by
  cases h with
  | unread hread => exact .unread hread
  | undecoded hread hdecode => exact .undecoded hread hdecode
  | ungenerated hread hdecode hgenerate => exact .ungenerated hread hdecode hgenerate
  | refused hgenerates hbefore hfile =>
    exact .refused (hgenerates.asRun dryRun verbosity) hbefore hfile

/-- The same hinders both runs. -/
theorem hindered_asRun_iff {dryRun : Bool} {verbosity : Nat} :
    Hindered (o.asRun dryRun verbosity) d before events failure ↔
      Hindered o d before events failure :=
  ⟨fun h => h.asRun o.dryRun o.verbosity, fun h => h.asRun dryRun verbosity⟩

end AsRun

/-! ## What is said -/

/-- Lines that name paths behind the given words. -/
def pathLines (words : String) (paths : List String) : String :=
  String.join (paths.map fun path => words ++ path ++ "\n")

theorem OfflineOptions.wroteLines_eq (o : OfflineOptions) (files : List GeneratedFile) :
    o.wroteLines files = pathLines "Wrote " (files.map fun f => o.target f.name) := by
  rw [wroteLines, pathLines, List.map_map]
  rfl

/-- Without any verbosity a dry run names paths and says nothing else. -/
theorem OfflineOptions.notices_of_quiet {o : OfflineOptions} (hdry : o.dryRun = true)
    (hquiet : o.verbosity = 0) (files : List GeneratedFile) :
    o.notices files = pathLines "Would write: " (files.map fun f => o.target f.name) := by
  have hnotice (path content : String) :
      o.notice path content = "Would write: " ++ path ++ "\n" := by
    simp [notice, hdry, hquiet]
  rw [notices, pathLines, List.map_map]
  simp only [hnotice]
  rfl

/-! ## Foretold runs -/

/-- **Dry runs** leave the disk as it is and foretell the runs that they stand for.

    * A dry run fails exactly if the descriptor set cannot be read or decoded, if nothing can be
      generated, or if the name of a generated file is refused.
    * What it then reports is what the real run reports, unless that cannot write one of the files
      before the one at which the dry run ends.
    * If the real run succeeds then the dry run does, and with no verbosity it names the same paths
      behind other words. -/
theorem dryRun_foretells (o : OfflineOptions) (d : Disk) (v w : Nat) :
    ((o.asRun true v).runOn d).2 = d ∧
      (((o.asRun true v).runOn d).1.exitCode ≠ 0 ↔
        (∃ fault, d.read o.descriptorSet = .error fault) ∨
        (∃ bytes fault, d.read o.descriptorSet = .ok bytes ∧
          DescriptorSet.decode bytes = .error fault) ∨
        (∃ bytes set e, d.read o.descriptorSet = .ok bytes ∧
          DescriptorSet.decode bytes = .ok set ∧
          generate (set.request o.files o.parameter) = .error e) ∨
        ∃ set files, o.Generates d set files ∧
          ∃ f ∈ files, ∃ e, outputPath o.output f.name = .error e) ∧
      (((o.asRun true v).runOn d).1.exitCode ≠ 0 → ∃ before events failure,
        Hindered o d before events failure ∧
        ((o.asRun true v).runOn d).1 =
          .failure ((o.asRun true v).notices before) (logText v events) failure ∧
        (((o.asRun false w).runOn d).1 =
            .failure (o.wroteLines before) (logText w events) failure ∨
          ∃ written file left fault, before = written ++ file :: left ∧ WriteError fault ∧
            ((o.asRun false w).runOn d).1 =
              .failure (o.wroteLines written) (logText w events) { error := fault })) ∧
      (((o.asRun false w).runOn d).1.exitCode = 0 →
        ((o.asRun true 0).runOn d).1.exitCode = 0 ∧
          ∃ set files, o.Generates d set files ∧
            let paths := files.map fun f => o.target f.name
            ((o.asRun false w).runOn d).1.stdout = Wire.utf8Bytes (pathLines "Wrote " paths) ∧
              ((o.asRun true 0).runOn d).1.stdout =
                Wire.utf8Bytes (pathLines "Would write: " paths)) := by
  have hfails : ((o.asRun true v).runOn d).1.exitCode ≠ 0 ↔
      ∃ before events failure, Hindered o d before events failure := by
    rw [exitCode_ne_zero_iff rfl]
    simp only [hindered_asRun_iff]
  refine ⟨runOn_snd_of_dryRun rfl, hfails.trans exists_hindered_iff, ?_, ?_⟩
  · intro hexit
    obtain ⟨before, events, failure, hhindered⟩ := hfails.mp hexit
    have hdry : (o.asRun true v).runOn d = _ :=
      runOn_of_hindered rfl (hindered_asRun_iff.mpr hhindered)
    refine ⟨before, events, failure, hhindered, ?_, ?_⟩
    · rw [hdry]
      rfl
    · exact runOn_of_hindered_or_writeError rfl (hindered_asRun_iff.mpr hhindered)
  · intro hexit
    obtain ⟨set, files, hreal, hsaid⟩ := unhindered_of_exitCode rfl hexit
    have hfiles : Unhindered o d set files := hreal.asRun o.dryRun o.verbosity
    have hdry : (o.asRun true 0).runOn d = _ := runOn_of_unhindered rfl (hfiles.asRun true 0)
    refine ⟨?_, set, files, hfiles.generates, ?_, ?_⟩
    · rw [hdry]
      rfl
    · rw [hsaid, OfflineOptions.wroteLines_eq]
      rfl
    · rw [hdry, OfflineOptions.notices_of_quiet rfl rfl]
      rfl

/-! ### A refused name and a run without it -/

namespace LateRefusal

/-- The run on the file whose name is not refused. -/
def accepted : OfflineOptions := { options with files := ["a.proto"] }

theorem generates_accepted : accepted.Generates disk set [files[0]] := by
  have hread : disk.read "set" = .ok bytes := rfl
  have hdecode : DescriptorSet.decode bytes = .ok set := rfl
  exact ⟨⟨bytes, hread, hdecode⟩, rfl⟩

theorem exitCode_accepted : ((accepted.asRun false 0).runOn disk).1.exitCode = 0 := by
  obtain ⟨⟨read, hread, hdecode⟩, hgenerate⟩ := generates_accepted
  have hmade : (access.createDirectories "out").run disk =
      (.ok (), disk.put ["out"] .directory) := rfl
  have hstores : Disk.Stores disk (accepted.writes [files[0]]) written :=
    .cons hmade rfl (.nil _)
  have hdeliver := run_deliver_append rfl (by decide) hstores .finished
  have hreal : accepted.asRun false 0 = accepted := rfl
  rw [hreal, runOn_of_deliver hread hdecode hgenerate hdeliver]
  rfl

end LateRefusal

open LateRefusal in
/-- A dry run refuses the name that the real run refuses late. Without it the dry run names the
    path that the real run writes. -/
theorem dryRun_of_lateRefusal :
    ((options.asRun true 1).runOn disk).2 = disk ∧
      ((options.asRun true 1).runOn disk).1.exitCode ≠ 0 ∧
      ((accepted.asRun true 0).runOn disk).1.stdout =
        Wire.utf8Bytes "Would write: out/a.yaml\n" := by
  obtain ⟨hsame, hfails, -, -⟩ := dryRun_foretells options disk 1 0
  have hrefused : outputPath options.output files[1].name = .error (.pathTraversal "../up.yaml") :=
    rfl
  have hmem : files[1] ∈ files := List.getElem_mem _
  refine ⟨hsame, hfails.mpr ?_, ?_⟩
  · exact .inr (.inr (.inr ⟨set, files, generates, files[1], hmem, _, hrefused⟩))
  · obtain ⟨-, set', files', ⟨⟨bytes', hread, hdecode⟩, hgenerate⟩, -, hsaid⟩ :=
      (dryRun_foretells accepted disk 0 0).2.2.2 exitCode_accepted
    have hbytes : disk.read accepted.descriptorSet = .ok bytes := rfl
    have hset : DescriptorSet.decode bytes = .ok set := rfl
    obtain rfl : bytes = bytes' := Except.ok.inj (hbytes.symm.trans hread)
    obtain rfl : set = set' := Except.ok.inj (hset.symm.trans hdecode)
    obtain rfl : [files[0]] = files' :=
      Except.ok.inj (generates_accepted.generates.symm.trans hgenerate)
    rw [hsaid]
    rfl

end SchemaSummary
