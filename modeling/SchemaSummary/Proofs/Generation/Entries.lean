import SchemaSummary.Proofs.Generation.Configuration

/-! # Entries of a parameter

  What of a parameter does not matter.

  * Of the order of entries only that of entries with one key counts. Which of several entries
    that cannot be accepted is reported does depend on the order, so this is about what is
    accepted and about the configuration.
  * Entries that say nothing and blanks around entries do not count at all, not even for what is
    reported.

  Both are said of the entries as they stand between the commas, with the blanks around them.
-/

namespace SchemaSummary

/-! ## Order -/

/-- What it means that two lists have the same entries, those with one key in the same order. -/
structure ReorderedByKey (entries entries' : List String) : Prop where
  perm : entries'.Perm entries
  sameKey : ∀ key, entries'.filter (fun e => entryKey (trimmed e) = key) =
    entries.filter fun e => entryKey (trimmed e) = key

/-- Entries that are read in another order still come in one order for each key. -/
theorem filter_parameterEntries_of_reordered {parameter parameter' : String}
    {entries entries' : List String} (h : ConsistsOf parameter entries)
    (h' : ConsistsOf parameter' entries') (hreordered : ReorderedByKey entries entries')
    (key : String) :
    (parameterEntries parameter').filter (entryKey · = key) =
      (parameterEntries parameter).filter (entryKey · = key) := by
  have hkeyed {parameter : String} {entries : List String} (h : ConsistsOf parameter entries) :
      (parameterEntries parameter).filter (entryKey · = key) =
        ((entries.filter fun e => entryKey (trimmed e) = key).map trimmed).filter (· ≠ "") := by
    have hmap : (entries.map trimmed).filter (entryKey · = key) =
        (entries.filter fun e => entryKey (trimmed e) = key).map trimmed := by
      rw [List.filter_map, Function.comp_def]
    -- Empty entries are left out before or after those with other keys.
    rw [h.parameterEntries_eq, ← hmap, List.filter_filter, List.filter_filter]
    simp only [Bool.and_comm]
  rw [hkeyed h, hkeyed h', hreordered.sameKey]

theorem Config.IsLast.congr {c : Config} {entries entries' : List String}
    (h : c.IsLast entries)
    (hfilter : ∀ key, entries'.filter (entryKey · = key) = entries.filter (entryKey · = key)) :
    c.IsLast entries' where
  paths := by rw [hfilter, h.paths]
  moduleName := by rw [hfilter, h.moduleName]
  importPaths file := by rw [hfilter, h.importPaths]

/-- Parameters with reordered entries describe one configuration, or none of them does. -/
theorem ofParameter_eq_ok_of_reordered {parameter parameter' : String}
    {entries entries' : List String} (h : ConsistsOf parameter entries)
    (h' : ConsistsOf parameter' entries') (hreordered : ReorderedByKey entries entries')
    (c : Config) :
    Config.ofParameter parameter' = .ok c ↔ Config.ofParameter parameter = .ok c := by
  have hfilter := filter_parameterEntries_of_reordered h h' hreordered
  have hmem (entry : String) :
      entry ∈ parameterEntries parameter' ↔ entry ∈ parameterEntries parameter := by
    rw [h.parameterEntries_eq, h'.parameterEntries_eq]
    exact ((hreordered.perm.map trimmed).filter _).mem_iff
  have hlast : c.IsLast (parameterEntries parameter') ↔ c.IsLast (parameterEntries parameter) :=
    ⟨fun hc => hc.congr fun key => (hfilter key).symm, fun hc => hc.congr hfilter⟩
  simp only [ofParameter_eq_ok_iff, Clash, hmem, hfilter, hlast]

/-! ## Padding -/

/-- What an entry may look like that says nothing. -/
inductive SaysNothing : String → Prop
  /-- Nothing at all is blank as well. -/
  | blank {entry : String} (hblank : Blank entry) : SaysNothing entry
  | bareAnnotate : SaysNothing "annotate_code"
  | annotate {value : String} (hvalue : value ∈ ["", "true", "false"]) :
      SaysNothing ("annotate_code=" ++ value)

/-- What it means that the second list is the first one with blanks put around entries, and with
    entries put anywhere that say nothing. -/
inductive Padded : List String → List String → Prop
  | nil : Padded [] []
  | kept {before entry after : String} {entries entries' : List String} (hbefore : Blank before)
      (hafter : Blank after) (hrest : Padded entries entries') :
      Padded (entry :: entries) ((before ++ entry ++ after) :: entries')
  | inserted {before entry after : String} {entries entries' : List String}
      (hbefore : Blank before) (hafter : Blank after) (hentry : SaysNothing entry)
      (hrest : Padded entries entries') :
      Padded entries ((before ++ entry ++ after) :: entries')

theorem notMem_of_blank {text : String} (h : Blank text) : ',' ∉ text.toList :=
  fun hcomma => absurd (h ',' hcomma) (by decide)

/-- Nothing, or a setting that sets nothing, is left of an entry that says nothing. -/
theorem trimmed_of_saysNothing {entry : String} (h : SaysNothing entry) :
    trimmed entry = "" ∨ ∃ value, Setting.parse (trimmed entry) = .ok (.annotate value) := by
  cases h with
  | blank hblank => exact .inl (trimmed_eq_empty_iff.mpr hblank)
  | bareAnnotate => exact .inr ⟨"", rfl⟩
  | annotate hvalue =>
    right
    simp only [List.mem_cons, List.not_mem_nil, or_false] at hvalue
    rcases hvalue with rfl | rfl | rfl
    · exact ⟨"", rfl⟩
    · exact ⟨"true", rfl⟩
    · exact ⟨"false", rfl⟩

theorem notMem_of_saysNothing {entry : String} (h : SaysNothing entry) : ',' ∉ entry.toList := by
  cases h with
  | blank hblank => exact notMem_of_blank hblank
  | bareAnnotate => decide
  | annotate hvalue =>
    simp only [List.mem_cons, List.not_mem_nil, or_false] at hvalue
    rcases hvalue with rfl | rfl | rfl <;> decide

theorem Padded.noComma {entries entries' : List String} (h : Padded entries entries')
    (hcommas : ∀ entry ∈ entries, ',' ∉ entry.toList) :
    ∀ entry ∈ entries', ',' ∉ entry.toList := by
  induction h with
  | nil => exact hcommas
  | kept hbefore hafter hrest ih =>
    rw [List.forall_mem_cons] at hcommas ⊢
    refine ⟨?_, ih hcommas.2⟩
    simp [notMem_of_blank hbefore, notMem_of_blank hafter, hcommas.1]
  | inserted hbefore hafter hentry hrest ih =>
    rw [List.forall_mem_cons]
    refine ⟨?_, ih hcommas⟩
    simp [notMem_of_blank hbefore, notMem_of_blank hafter, notMem_of_saysNothing hentry]

/-! ### Entry by entry -/

/-- A configuration changed by one entry as it stands between the commas. -/
def Config.take (c : Config) (entry : String) : Except Error Config :=
  if trimmed entry = "" then .ok c else (Setting.parse (trimmed entry)).map c.set

/-- A parameter is read entry by entry, and what the entries say together is weighed last. -/
theorem ConsistsOf.ofParameter_eq {parameter : String} {entries : List String}
    (h : ConsistsOf parameter entries) :
    Config.ofParameter parameter = entries.foldlM Config.take {} >>= Config.check := by
  -- An empty entry is passed over, which is what leaving it out comes to.
  have hstep : (fun (c : Config) entry => if decide (trimmed entry ≠ "") = true then
      (Setting.parse (trimmed entry)).map c.set else pure c) = Config.take := by
    funext c entry
    by_cases hempty : trimmed entry = ""
    · simp [Config.take, hempty, pure, Except.pure]
    · simp [Config.take, hempty]
  have htake : entries.foldlM Config.take {} =
      ((parameterEntries parameter).mapM Setting.parse).map fun settings =>
        settings.foldl Config.set {} := by
    rw [← foldlM_eq_map_mapM, h.parameterEntries_eq, List.foldlM_filter, List.foldlM_map, hstep]
  rw [htake, Config.ofParameter]
  cases (parameterEntries parameter).mapM Setting.parse <;> rfl

theorem take_padded {before after : String} (hbefore : Blank before) (hafter : Blank after)
    (c : Config) (entry : String) : c.take (before ++ entry ++ after) = c.take entry := by
  unfold Config.take
  rw [trimmed_padded hbefore hafter]

theorem take_of_saysNothing {entry : String} (h : SaysNothing entry) (c : Config) :
    c.take entry = .ok c := by
  unfold Config.take
  rcases trimmed_of_saysNothing h with hempty | ⟨value, hparse⟩
  · rw [if_pos hempty]
  · rw [hparse]
    split <;> rfl

/-- Padding is gone when a list of entries has been taken. -/
theorem Padded.foldlM_take {entries entries' : List String} (h : Padded entries entries')
    (c : Config) : entries'.foldlM Config.take c = entries.foldlM Config.take c := by
  induction h generalizing c with
  | nil => rfl
  | kept hbefore hafter hrest ih =>
    rw [List.foldlM_cons, List.foldlM_cons, take_padded hbefore hafter]
    simp only [ih]
  | inserted hbefore hafter hentry hrest ih =>
    rw [List.foldlM_cons, take_padded hbefore hafter, take_of_saysNothing hentry]
    exact ih c

/-- **Order and padding**: every parameter consists of entries, and of these

    * it does not matter how those with different keys are ordered, neither for whether the
      parameter is accepted nor for the configuration that it describes,
    * padding does not matter at all, not even for the error that is reported. -/
theorem parameter_order_and_padding :
    (∀ parameter, ∃ entries, ConsistsOf parameter entries) ∧
      ∀ parameter entries, ConsistsOf parameter entries →
        (∀ entries', ReorderedByKey entries entries' → ∀ c,
          Config.ofParameter (joinEntries entries') = .ok c ↔
            Config.ofParameter parameter = .ok c) ∧
        ∀ entries', Padded entries entries' →
          Config.ofParameter (joinEntries entries') = Config.ofParameter parameter := by
  refine ⟨exists_consistsOf, ?_⟩
  intro parameter entries h
  constructor
  · intro entries' hreordered
    have h' : ConsistsOf (joinEntries entries') entries' :=
      ⟨rfl, fun entry hentry => h.noComma entry (hreordered.perm.mem_iff.mp hentry)⟩
    exact ofParameter_eq_ok_of_reordered h h' hreordered
  · intro entries' hpadded
    have h' : ConsistsOf (joinEntries entries') entries' := ⟨rfl, hpadded.noComma h.noComma⟩
    rw [h'.ofParameter_eq, h.ofParameter_eq, hpadded.foldlM_take]

/-- The last of two import paths still counts when a module is put in front of them, and an entry
    that cannot be accepted is still reported behind blanks and entries that say nothing. -/
theorem reordered_and_padded :
    (∀ c, Config.ofParameter (joinEntries ["module=m", "Ma=x", "Ma=y"]) = .ok c ↔
      Config.ofParameter "Ma=x,module=m,Ma=y" = .ok c) ∧
    Config.ofParameter (joinEntries [" Ma=x\t", "", "annotate_code=true", "lang=c"]) =
      Config.ofParameter "Ma=x,lang=c" := by
  have hreordered : ReorderedByKey ["Ma=x", "module=m", "Ma=y"] ["module=m", "Ma=x", "Ma=y"] := by
    refine ⟨.swap .., ?_⟩
    intro key
    have hmodule : entryKey (trimmed "module=m") = "module" := by decide
    have hfile : entryKey (trimmed "Ma=x") = "Ma" := by decide
    by_cases hkey : key = "module"
    · subst hkey
      decide
    · simp [List.filter_cons, hmodule, hfile, Ne.symm hkey]
  have hpadded : Padded ["Ma=x", "lang=c"] [" Ma=x\t", "", "annotate_code=true", "lang=c"] := by
    have hblank : Blank "" := by simp [Blank]
    have hspace : Blank " " := List.forall_mem_singleton.mpr (by decide)
    have htab : Blank "\t" := List.forall_mem_singleton.mpr (by decide)
    have hvalue : "true" ∈ ["", "true", "false"] := by decide
    have htrue : SaysNothing "annotate_code=true" := .annotate hvalue
    exact .kept hspace htab (.inserted hblank hblank (.blank hblank)
      (.inserted hblank hblank htrue (.kept hblank hblank .nil)))
  have horder := parameter_order_and_padding.2 "Ma=x,module=m,Ma=y" ["Ma=x", "module=m", "Ma=y"]
    ⟨by decide, by decide⟩
  have hpadding := parameter_order_and_padding.2 "Ma=x,lang=c" ["Ma=x", "lang=c"]
    ⟨by decide, by decide⟩
  exact ⟨horder.1 _ hreordered, hpadding.2 _ hpadded⟩

end SchemaSummary
