import SchemaSummary.Command.Log
import SchemaSummary.Proofs.Generation.Configuration
import SchemaSummary.Proofs.Generation.Locality

/-! # Failing requests

  On which requests generation fails, and with which error. There are three stages, and the
  first one with something to refuse is the one that is heard:

    * the parameter, of which the first entry that is not acceptable counts, then a clash,
    * the names, of which the first one without a descriptor counts,
    * the module, of which the first selected file outside counts.

  Nothing else fails, so the request is to blame for every failure.
-/

namespace SchemaSummary

/-! ## Output names -/

/-- Whether an output name begins with a module and the slash behind it. -/
def InModule (m : String) (name : List Char) : Prop := ∃ rest, name = m.toList ++ '/' :: rest

theorem inModule_iff_prefix {m : String} {name : List Char} :
    InModule m name ↔ m.toList ++ ['/'] <+: name := by
  constructor
  · intro h
    obtain ⟨rest, rfl⟩ := h
    exact ⟨rest, by simp⟩
  · intro h
    obtain ⟨rest, rfl⟩ := h
    exact ⟨rest, by simp⟩

instance (m : String) (name : List Char) : Decidable (InModule m name) :=
  decidable_of_iff _ inModule_iff_prefix.symm

theorem leaveModule_eq_error_iff {c : Config} {name : List Char} {e : Error} :
    c.leaveModule name = .error e ↔ ∃ m, c.moduleName = some m ∧ ¬ InModule m name ∧
      e = .outsideModule (String.ofList name) m := by
  unfold Config.leaveModule
  cases hm : c.moduleName with
  | none => simp
  | some m =>
    simp only [Option.some.injEq, exists_eq_left']
    cases hdrop : (m.toList ++ ['/']).isPrefixOf? name with
    | none =>
      have houtside : ¬ InModule m name := by
        intro hinside
        obtain ⟨rest, rfl⟩ := hinside
        have hrest : (m.toList ++ ['/']).isPrefixOf? (m.toList ++ '/' :: rest) = some rest :=
          List.isPrefixOf?_eq_some_iff_append_eq.mpr (by simp)
        rw [hdrop] at hrest
        cases hrest
      simp [houtside, eq_comm]
    | some rest =>
      have hinside : InModule m name := by
        refine ⟨rest, ?_⟩
        simpa using (List.isPrefixOf?_eq_some_iff_append_eq.mp hdrop).symm
      simp [hinside]

/-- The YAML file for a schema file has the output name of the schema file and its document. -/
theorem output_yaml_eq_ok_iff {c : Config} {f : FileDescriptor} {file : GeneratedFile} :
    (Generator.yaml c).output f = .ok file ↔
      ∃ stem, c.outputStem f = .ok stem ∧ file = ⟨stem ++ ".yaml", f.document.toYaml⟩ := by
  rw [Generator.output_eq]
  constructor
  · intro h
    obtain ⟨stem, hstem, hfile⟩ := bind_eq_ok_iff.mp h
    exact ⟨stem, hstem, (Except.ok.inj hfile).symm⟩
  · intro h
    obtain ⟨stem, hstem, rfl⟩ := h
    exact bind_eq_ok_iff.mpr ⟨stem, hstem, rfl⟩

/-- The YAML file for a schema file cannot be generated if its output name cannot be formed. -/
theorem output_yaml_eq_error_iff {c : Config} {f : FileDescriptor} {e : Error} :
    (Generator.yaml c).output f = .error e ↔ c.outputStem f = .error e := by
  rw [Generator.output_eq]
  constructor
  · intro h
    rcases bind_eq_error_iff.mp h with hstem | ⟨stem, -, hfile⟩
    · exact hstem
    · cases hfile
  · intro h
    exact bind_eq_error_iff.mpr (.inl h)

/-- Where output names follow import paths, those outside the module cannot be formed. -/
theorem outputStem_eq_error_iff {c : Config} (hpaths : c.paths = .importPath)
    {f : FileDescriptor} {e : Error} :
    c.outputStem f = .error e ↔ ∃ m, c.moduleName = some m ∧ ¬ InModule m (c.importName f) ∧
      e = .outsideModule (String.ofList (c.importName f)) m := by
  rw [Config.outputStem, hpaths]
  exact leaveModule_eq_error_iff

/-! ## Requests -/

open Request (describes_eq_true_iff describes_eq_false_iff)

/-- What it means that the parameter of a request is in order, and has the given entries. A request
    without a parameter has one without entries. -/
structure Request.InOrder (q : Request) (entries : List String) : Prop where
  hasEntries : HasEntries (q.parameter.getD "") entries
  acceptable : ∀ x ∈ entries, Acceptable x
  noClash : ¬ Clash entries

/-- What is wrong with a request, and how it is reported. -/
inductive Refuses (q : Request) : Error → Prop
  /-- The first entry that is not acceptable. -/
  | entry {before : List String} {entry : String} {after : List String}
      (hentries : HasEntries (q.parameter.getD "") (before ++ entry :: after))
      (hbefore : ∀ x ∈ before, Acceptable x) (hentry : ¬ Acceptable entry) :
      Refuses q (refusal entry)
  /-- Acceptable entries that cannot stand together. -/
  | clash {entries : List String} (hentries : HasEntries (q.parameter.getD "") entries)
      (hall : ∀ x ∈ entries, Acceptable x) (hclash : Clash entries) :
      Refuses q (.invalidParameter "paths=source_relative" .moduleClash)
  /-- The first name that no descriptor has, if the parameter is in order. -/
  | missing {entries : List String} (horder : q.InOrder entries)
      {before : List String} {name : String} {after : List String}
      (hnames : q.filesToGenerate = before ++ name :: after)
      (hbefore : ∀ n ∈ before, ∃ f ∈ q.files, f.path = n) (hname : ∀ f ∈ q.files, f.path ≠ name) :
      Refuses q (.missingDescriptor name)
  /-- The first selected file outside the module, if the parameter and the names are in order. The
      module and the import paths are those of the last entries that set them. -/
  | outside {entries : List String} (horder : q.InOrder entries)
      (hnames : ∀ n ∈ q.filesToGenerate, ∃ f ∈ q.files, f.path = n)
      {c : Config} (hlast : c.IsLast entries) {m : String} (hmodule : c.moduleName = some m)
      {before : List FileDescriptor} {f : FileDescriptor} {after : List FileDescriptor}
      (hselected : q.SelectsFirst (before ++ f :: after))
      (hbefore : ∀ g ∈ before, InModule m (c.importName g))
      (hf : ¬ InModule m (c.importName f)) :
      Refuses q (.outsideModule (String.ofList (c.importName f)) m)

/-! ### Configured requests -/

/-- A request whose parameter is in order has the configuration of its last entries. -/
theorem config_eq_ok_iff {q : Request} {c : Config} :
    q.config = .ok c ↔ ∃ entries, q.InOrder entries ∧ c.IsLast entries := by
  have hconfig : q.config = .ok c ↔ _ := ofParameter_eq_ok_iff
  rw [hconfig]
  constructor
  · intro h
    obtain ⟨hall, hclash, hlast⟩ := h
    exact ⟨_, ⟨hasEntries_iff.mpr rfl, hall, hclash⟩, hlast⟩
  · intro h
    obtain ⟨entries, horder, hlast⟩ := h
    rw [hasEntries_iff.mp horder.hasEntries]
    exact ⟨horder.acceptable, horder.noClash, hlast⟩

theorem exists_config_of_inOrder {q : Request} {entries : List String} (h : q.InOrder entries) :
    ∃ c, q.config = .ok c := by
  refine exists_ofParameter_iff.mpr ?_
  rw [hasEntries_iff.mp h.hasEntries]
  exact ⟨h.acceptable, h.noClash⟩

theorem config_eq_error_iff {q : Request} {e : Error} : q.config = .error e ↔
    ∃ entries, HasEntries (q.parameter.getD "") entries ∧
      ((∃ before entry after, entries = before ++ entry :: after ∧
          (∀ x ∈ before, Acceptable x) ∧ ¬ Acceptable entry ∧ e = refusal entry) ∨
        ((∀ entry ∈ entries, Acceptable entry) ∧ Clash entries ∧
          e = .invalidParameter "paths=source_relative" .moduleClash)) := by
  have hconfig : q.config = .error e ↔ _ := ofParameter_eq_error_iff
  simp only [hconfig, hasEntries_iff, exists_eq_left']

section Configured

variable {q : Request} {c : Config}

/-- Where the parameter is in order, only files outside the module cannot be generated. -/
theorem output_eq_error_iff (hconfig : q.config = .ok c) {f : FileDescriptor} {e : Error} :
    (Generator.yaml c).output f = .error e ↔ ∃ m, c.moduleName = some m ∧
      ¬ InModule m (c.importName f) ∧ e = .outsideModule (String.ofList (c.importName f)) m := by
  rw [output_yaml_eq_error_iff]
  cases hpaths : c.paths with
  | importPath => exact outputStem_eq_error_iff hpaths
  | sourceRelative =>
    -- No module stands beside such output names, so both sides are false.
    constructor
    · intro hstem
      rw [Config.outputStem, hpaths] at hstem
      cases hstem
    · intro hmodule
      obtain ⟨m, hm, -⟩ := hmodule
      rw [paths_of_ofParameter hconfig hm] at hpaths
      cases hpaths

theorem exists_output_iff (hconfig : q.config = .ok c) {m : String} (hm : c.moduleName = some m)
    {f : FileDescriptor} :
    (∃ file, (Generator.yaml c).output f = .ok file) ↔ InModule m (c.importName f) := by
  constructor
  · intro hfile
    obtain ⟨file, hfile⟩ := hfile
    refine Decidable.byContradiction fun hnot => ?_
    have herror := (output_eq_error_iff hconfig).mpr ⟨m, hm, hnot, rfl⟩
    rw [hfile] at herror
    cases herror
  · intro hinside
    cases hout : (Generator.yaml c).output f with
    | ok file => exact ⟨file, rfl⟩
    | error e =>
      obtain ⟨m', hm', houtside, -⟩ := (output_eq_error_iff hconfig).mp hout
      rw [hm] at hm'
      rw [Option.some.inj hm'] at hinside
      exact absurd hinside houtside

/-- A request whose parameter is in order fails by its names or else by its module. -/
theorem generate_yaml_eq_error_iff (hconfig : q.config = .ok c) {e : Error} :
    (Generator.yaml c).generate q = .error e ↔ q.select = .error e ∨
      ∃ m before f after, c.moduleName = some m ∧ q.select = .ok (before ++ f :: after) ∧
        (∀ g ∈ before, InModule m (c.importName g)) ∧ ¬ InModule m (c.importName f) ∧
        e = .outsideModule (String.ofList (c.importName f)) m := by
  rw [Generator.generate_eq]
  constructor
  · intro h
    rcases bind_eq_error_iff.mp h with hselect | ⟨selected, hselect, houtputs⟩
    · exact .inl hselect
    · right
      obtain ⟨before, f, after, rfl, hbefore, hf⟩ := mapM_eq_error_iff.mp houtputs
      obtain ⟨m, hm, houtside, heq⟩ := (output_eq_error_iff hconfig).mp hf
      refine ⟨m, before, f, after, hm, hselect, ?_, houtside, heq⟩
      intro g hg
      exact (exists_output_iff hconfig hm).mp (hbefore g hg)
  · intro h
    rcases h with hselect | ⟨m, before, f, after, hm, hselect, hbefore, hf, rfl⟩
    · exact bind_eq_error_iff.mpr (.inl hselect)
    · have hfails : (before ++ f :: after).mapM (Generator.yaml c).output =
          .error (.outsideModule (String.ofList (c.importName f)) m) := by
        refine mapM_eq_error_iff.mpr ⟨before, f, after, rfl, ?_, ?_⟩
        · intro g hg
          exact (exists_output_iff hconfig hm).mpr (hbefore g hg)
        · exact (output_eq_error_iff hconfig).mpr ⟨m, hm, hf, rfl⟩
      exact bind_eq_error_iff.mpr (.inr ⟨_, hselect, hfails⟩)

end Configured

theorem generate_eq_error_iff {q : Request} {e : Error} :
    generate q = .error e ↔ Refuses q e := by
  have hgenerate : generate q = .error e ↔ q.config = .error e ∨
      ∃ c, q.config = .ok c ∧ (Generator.yaml c).generate q = .error e := bind_eq_error_iff
  rw [hgenerate]
  constructor
  · intro h
    -- The parameter is read first, and then the names come before the module.
    rcases h with hconfig | ⟨c, hconfig, herror⟩
    · obtain ⟨entries, hentries, hrefused⟩ := config_eq_error_iff.mp hconfig
      rcases hrefused with ⟨before, entry, after, rfl, hbefore, hentry, rfl⟩ | ⟨hall, hclash, rfl⟩
      · exact .entry hentries hbefore hentry
      · exact .clash hentries hall hclash
    · obtain ⟨entries, horder, hlast⟩ := config_eq_ok_iff.mp hconfig
      rcases (generate_yaml_eq_error_iff hconfig).mp herror with
        hselect | ⟨m, before, f, after, hm, hselect, hbefore, hf, rfl⟩
      · obtain ⟨before, name, after, hnames, hbefore, hname, rfl⟩ :=
          Request.select_eq_error_iff.mp hselect
        exact .missing horder hnames
          (fun n hn => describes_eq_true_iff.mp (hbefore n hn)) (describes_eq_false_iff.mp hname)
      · obtain ⟨hnames, hselected⟩ := Request.select_eq_ok_iff_selectsFirst.mp hselect
        exact .outside horder hnames hlast hm hselected hbefore hf
  · intro h
    cases h with
    | entry hentries hbefore hentry =>
      exact .inl (config_eq_error_iff.mpr
        ⟨_, hentries, .inl ⟨_, _, _, rfl, hbefore, hentry, rfl⟩⟩)
    | clash hentries hall hclash =>
      exact .inl (config_eq_error_iff.mpr ⟨_, hentries, .inr ⟨hall, hclash, rfl⟩⟩)
    | missing horder hnames hbefore hname =>
      obtain ⟨c, hconfig⟩ := exists_config_of_inOrder horder
      refine .inr ⟨c, hconfig, (generate_yaml_eq_error_iff hconfig).mpr (.inl ?_)⟩
      exact Request.select_eq_error_iff.mpr ⟨_, _, _, hnames,
        fun n hn => describes_eq_true_iff.mpr (hbefore n hn), describes_eq_false_iff.mpr hname, rfl⟩
    | outside horder hnames hlast hmodule hselected hbefore hf =>
      have hconfig := config_eq_ok_iff.mpr ⟨_, horder, hlast⟩
      have hselect := Request.select_eq_ok_iff_selectsFirst.mpr ⟨hnames, hselected⟩
      exact .inr ⟨_, hconfig, (generate_yaml_eq_error_iff hconfig).mpr
        (.inr ⟨_, _, _, _, hmodule, hselect, hbefore, hf, rfl⟩)⟩

theorem isRequestError_of_refuses {q : Request} {e : Error} (h : Refuses q e) :
    e.isRequestError = true := by
  cases h with
  | entry hentries hbefore hentry => rfl
  | clash hentries hall hclash => rfl
  | missing horder hnames hbefore hname => rfl
  | outside horder hnames hlast hmodule hselected hbefore hf => rfl

/-- **Failures**: generation fails exactly with what is wrong with the request, and succeeds if
    nothing is. So the request is to blame for every failure, and it is answered as refused. -/
theorem generate_fails_iff (q : Request) :
    (∀ e, generate q = .error e ↔ Refuses q e) ∧
      ((∃ files, generate q = .ok files) ↔ ∀ e, ¬ Refuses q e) ∧
      ∀ e, generate q = .error e → e.isRequestError = true ∧
        (Event.refused e).text = "Rejected request: " ++ e.message ∧
        (Event.refused e).level = .warn := by
  refine ⟨fun e => generate_eq_error_iff, ?_, ?_⟩
  · cases h : generate q with
    | ok files =>
      have hnone (e : Error) : ¬ Refuses q e := by
        rw [← generate_eq_error_iff, h]
        exact nofun
      simp [hnone]
    | error e =>
      have hrefuses := generate_eq_error_iff.mp h
      simp only [reduceCtorEq, exists_false, false_iff]
      exact fun hnone => hnone e hrefuses
  · intro e h
    have hrequest := isRequestError_of_refuses (generate_eq_error_iff.mp h)
    refine ⟨hrequest, ?_, ?_⟩
    · show (if e.isRequestError then _ else _) ++ e.message = _
      rw [if_pos hrequest]
    · show (if e.isRequestError then Level.warn else Level.error) = _
      rw [if_pos hrequest]

end SchemaSummary
