import Mathlib.Data.List.Nodup
import SchemaSummary.Proofs.Generation.Entries

/-! # Configurations and their parameters

  Which configurations can be asked for, and how to ask for one.

  Commas end an entry and blanks at its end are trimmed, so no value has either; a file name has no
  equals sign, because the first one ends it. Blanks in front of a value, more equals signs and the
  empty value are all fine. Within these bounds every configuration is described by the entries of
  its settings, in any order.
-/

namespace SchemaSummary

/-! ## What entries can hold -/

/-- What can stand behind the equals sign of an entry. -/
structure ValueText (value : String) : Prop where
  noComma : ',' ∉ value.toList
  noBlankEnd : ∀ c, value.toList.getLast? = some c → ¬ Text.WhiteSpace c

theorem valueText_iff {value : String} : ValueText value ↔ ',' ∉ value.toList ∧
    value.toList.getLast?.all fun c => !decide (Text.WhiteSpace c) := by
  rw [Option.all_eq_true]
  constructor
  · intro h
    exact ⟨h.noComma, fun c hc => by simp [h.noBlankEnd c hc]⟩
  · intro h
    exact ⟨h.1, fun c hc => by simpa using h.2 c hc⟩

instance (value : String) : Decidable (ValueText value) := decidable_of_iff _ valueText_iff.symm

/-- What can stand between the letter of an import path and the equals sign. -/
structure FileText (file : String) : Prop where
  nonempty : file ≠ ""
  noComma : ',' ∉ file.toList
  noSign : '=' ∉ file.toList

/-- Configurations that can be asked for. -/
structure Config.Expressible (c : Config) : Prop where
  /-- A module does not stand beside output names that do not follow import paths. -/
  noClash : c.moduleName = none ∨ c.paths ≠ .sourceRelative
  moduleName : ∀ name, c.moduleName = some name → ValueText name
  files : ∀ file path, c.importPaths[file]? = some path → FileText file
  importPaths : ∀ (file : String) path, c.importPaths[file]? = some path → ValueText path

/-- An entry ends as its value does, or with the equals sign. -/
theorem valueText_keyed_iff {key value : String} :
    ValueText (key ++ "=" ++ value) ↔ ',' ∉ key.toList ∧ ValueText value := by
  have htext : (key ++ "=" ++ value).toList = key.toList ++ '=' :: value.toList := by simp
  have hcomma : ',' ∉ (key ++ "=" ++ value).toList ↔ ',' ∉ key.toList ∧ ',' ∉ value.toList := by
    simp [htext]
  have hlast : (key ++ "=" ++ value).toList.getLast? = some (value.toList.getLast?.getD '=') := by
    simp [htext, List.getLast?_append, List.getLast?_cons]
  constructor
  · intro h
    obtain ⟨hkey, hvalue⟩ := hcomma.mp h.noComma
    refine ⟨hkey, hvalue, ?_⟩
    intro c hc
    exact h.noBlankEnd c (by rw [hlast, hc]; rfl)
  · intro h
    obtain ⟨hkey, hvalue⟩ := h
    refine ⟨hcomma.mpr ⟨hkey, hvalue.noComma⟩, ?_⟩
    intro c hc
    rw [hlast] at hc
    cases hend : value.toList.getLast? with
    | none =>
      -- Without a value the entry ends with the equals sign, which is no blank.
      rw [hend] at hc
      cases hc
      decide
    | some d =>
      rw [hend] at hc
      cases hc
      exact hvalue.noBlankEnd d hend

/-! ## What entries say -/

section Described

variable {parameter : String}

/-- An entry that is read has neither commas nor blanks at its end. -/
theorem valueText_of_mem {entry : String} (h : entry ∈ parameterEntries parameter) :
    ValueText entry := by
  obtain ⟨entries, hentries⟩ := exists_consistsOf parameter
  rw [hentries.parameterEntries_eq] at h
  obtain ⟨raw, hraw, rfl⟩ := List.mem_map.mp (List.mem_filter.mp h).1
  obtain ⟨before, after, -, -, hsplit⟩ := exists_eq_append_trimmed raw
  refine ⟨?_, (unpadded_trimmed raw).last⟩
  intro hcomma
  have hmem : ',' ∈ raw.toList := by
    rw [hsplit]
    simp [hcomma]
  exact hentries.noComma raw hraw hmem

theorem entry_texts {entry : String} (h : ValueText entry) :
    '=' ∉ (entryKey entry).toList ∧ ',' ∉ (entryKey entry).toList ∧
      ValueText (entryValue entry) := by
  rcases entry_cases entry with ⟨hsign, hbare, hempty⟩ | ⟨hsign, hkeyed⟩
  · rw [hbare, hempty]
    exact ⟨hsign, h.noComma, by decide, by simp⟩
  · have hboth : ValueText (entryKey entry ++ "=" ++ entryValue entry) := by
      rw [← hkeyed]
      exact h
    exact ⟨hsign, valueText_keyed_iff.mp hboth⟩

/-- The last value for a key comes from an entry with that key. -/
theorem exists_entry_of_getLast? {key value : String}
    (h : (((parameterEntries parameter).filter (entryKey · = key)).map entryValue).getLast? =
      some value) :
    ∃ entry ∈ parameterEntries parameter, entryKey entry = key ∧ entryValue entry = value := by
  obtain ⟨entry, hentry, hvalue⟩ := List.mem_map.mp (List.mem_of_getLast? h)
  obtain ⟨hmem, hkey⟩ := List.mem_filter.mp hentry
  exact ⟨entry, hmem, of_decide_eq_true hkey, hvalue⟩

/-- The letter of an import path needs the name of a file behind it. -/
theorem fileless_not_acceptable {entry : String} (hkey : entryKey entry = "M") :
    ¬ Acceptable entry := by
  intro h
  obtain ⟨s, hs⟩ := exists_parse_of_acceptable h
  rw [parse_eq, hkey] at hs
  cases hs

/-- A configuration that is described can be asked for. -/
theorem expressible_of_ofParameter {c : Config} (h : Config.ofParameter parameter = .ok c) :
    c.Expressible := by
  obtain ⟨hacceptable, -, hlast⟩ := ofParameter_eq_ok_iff.mp h
  have himport {file path : String} (hpath : c.importPaths[file]? = some path) :
      FileText file ∧ ValueText path := by
    rw [hlast.importPaths] at hpath
    obtain ⟨entry, hentry, hkey, rfl⟩ := exists_entry_of_getLast? hpath
    obtain ⟨hsign, hcomma, hvalue⟩ := entry_texts (valueText_of_mem hentry)
    rw [hkey] at hsign hcomma
    refine ⟨⟨?_, by simpa using hcomma, by simpa using hsign⟩, hvalue⟩
    -- Without a name only the letter is left of the key.
    intro hempty
    rw [hempty] at hkey
    exact fileless_not_acceptable hkey (hacceptable entry hentry)
  constructor
  · cases hmodule : c.moduleName with
    | none => exact .inl rfl
    | some name =>
      right
      rw [paths_of_ofParameter h hmodule]
      exact nofun
  · intro name hname
    rw [hlast.moduleName] at hname
    obtain ⟨entry, hentry, -, rfl⟩ := exists_entry_of_getLast? hname
    exact (entry_texts (valueText_of_mem hentry)).2.2
  · intro file path hpath
    exact (himport hpath).1
  · intro file path hpath
    exact (himport hpath).2

end Described

/-! ## Entries for settings -/

namespace Config

theorem mem_settings {c : Config} {s : Setting} :
    s ∈ c.settings ↔ s = .paths c.paths ∨
      (∃ name, c.moduleName = some name ∧ s = .moduleName name) ∨
      ∃ (file : String) (path : String), c.importPaths[file]? = some path ∧
        s = .importPath file path := by
  simp [settings, eq_comm]

/-- What the settings of a configuration say about something. -/
theorem mem_filterMap_settings {α : Type} {c : Config} {f : Setting → Option α} {a : α} :
    a ∈ c.settings.filterMap f ↔ f (.paths c.paths) = some a ∨
      (∃ name, c.moduleName = some name ∧ f (.moduleName name) = some a) ∨
      ∃ (file : String) (path : String), c.importPaths[file]? = some path ∧
        f (.importPath file path) = some a := by
  simp [mem_settings, or_and_right, exists_or]

/-- Where all items of a list are one and the same, the last one is that. -/
theorem getLast?_eq_of_mem_iff {α : Type} {xs : List α} {o : Option α}
    (h : ∀ a, a ∈ xs ↔ o = some a) : xs.getLast? = o := by
  cases hlast : xs.getLast? with
  | some a => exact ((h a).mp (List.mem_of_getLast? hlast)).symm
  | none =>
    rw [List.getLast?_eq_none_iff] at hlast
    cases o with
    | none => rfl
    | some a =>
      have hmem := (h a).mpr rfl
      rw [hlast] at hmem
      cases hmem

/-- The settings of a configuration make it up again. -/
theorem foldl_set_settings (c : Config) : c.settings.foldl set {} = c := by
  -- There is one setting for each thing that is decided, and so it is the last one.
  have hpaths : (c.settings.filterMap Setting.mode?).getLast? = some c.paths := by
    refine getLast?_eq_of_mem_iff fun _ => ?_
    rw [mem_filterMap_settings]
    simp [Setting.mode?]
  have hmodule : (c.settings.filterMap Setting.module?).getLast? = c.moduleName := by
    refine getLast?_eq_of_mem_iff fun _ => ?_
    rw [mem_filterMap_settings]
    simp [Setting.module?]
  have himport (file : String) : (c.settings.filterMap (Setting.importPath? file)).getLast? =
      c.importPaths[file]? := by
    refine getLast?_eq_of_mem_iff fun _ => ?_
    rw [mem_filterMap_settings]
    simp [Setting.importPath?]
  apply eq_of_getElem?
  · rw [foldl_set_paths, hpaths]
    rfl
  · rw [foldl_set_moduleName, hmodule]
    exact Option.or_none
  · intro file
    rw [getElem?_foldl_set, himport]
    exact Option.or_none

/-- No two settings of a configuration have one key. -/
theorem nodup_map_key_settings (c : Config) : (c.settings.map Setting.key).Nodup := by
  have hfiles : (c.importPaths.toList.map fun p => "M" ++ p.1).Nodup := by
    rw [List.Nodup, List.pairwise_map]
    refine Std.ExtTreeMap.distinct_keys_toList.imp ?_
    intro p q hne heq
    rw [(String.append_right_inj _).mp heq] at hne
    exact hne Std.ReflCmp.compare_self
  -- The letter of import paths begins no other key.
  have hother {key : String} (hword : key.toList.head? ≠ some 'M') :
      key ∉ c.importPaths.toList.map fun p => "M" ++ p.1 := by
    intro hmem
    obtain ⟨p, -, hp⟩ := List.mem_map.mp hmem
    exact importKey_ne hword p.1 hp
  have hkeys : c.settings.map Setting.key =
      "paths" :: (c.moduleName.toList.map fun _ => "module") ++
        c.importPaths.toList.map fun p => "M" ++ p.1 := by
    rw [settings, List.map_cons, List.map_append, List.map_map, List.map_map]
    rfl
  have hpaths : "paths" ∉ c.importPaths.toList.map fun p => "M" ++ p.1 := hother (by decide)
  have hmodule : "module" ∉ c.importPaths.toList.map fun p => "M" ++ p.1 := hother (by decide)
  have hne : "paths" ≠ "module" := by decide
  rw [hkeys]
  cases c.moduleName with
  | none => exact List.nodup_cons.mpr ⟨hpaths, hfiles⟩
  | some name =>
    refine List.nodup_cons.mpr ⟨?_, List.nodup_cons.mpr ⟨hmodule, hfiles⟩⟩
    exact List.not_mem_cons_of_ne_of_not_mem hne hpaths

end Config

/-- What the entry for a setting has to be like so that it is read as that setting. -/
structure Setting.Readable (s : Setting) : Prop where
  key_noComma : ',' ∉ s.key.toList
  key_noSign : '=' ∉ s.key.toList
  value : ValueText s.value
  reads : parse s.text = .ok s

theorem readable_of_expressible {c : Config} (h : c.Expressible) :
    ∀ s ∈ c.settings, s.Readable := by
  intro s hs
  obtain rfl | ⟨name, hname, rfl⟩ | ⟨file, path, hpath, rfl⟩ := Config.mem_settings.mp hs
  · cases c.paths <;> exact ⟨by decide, by decide, by decide, rfl⟩
  · have hcomma : ',' ∉ "module".toList := by decide
    have hsign : '=' ∉ "module".toList := by decide
    exact ⟨hcomma, hsign, h.moduleName name hname, parse_keyed "module" name hsign⟩
  · have hfile := h.files file path hpath
    have hcomma : ',' ∉ ("M" ++ file).toList := by simpa using hfile.noComma
    have hsign : '=' ∉ ("M" ++ file).toList := by simpa using hfile.noSign
    have hparse := parse_eq_importPath hfile.nonempty (entryKey_keyed hsign path)
    rw [entryValue_keyed hsign] at hparse
    exact ⟨hcomma, hsign, h.importPaths file path hpath, hparse⟩

/-- An entry for a setting begins with a letter. -/
theorem Setting.exists_text_eq_cons (s : Setting) :
    ∃ c cs, s.text.toList = c :: cs ∧ ¬ Text.WhiteSpace c := by
  cases s with
  | paths mode => exact ⟨'p', "aths=".toList ++ mode.text.toList, String.toList_append, by decide⟩
  | moduleName name => exact ⟨'m', "odule=".toList ++ name.toList, String.toList_append, by decide⟩
  | importPath file path =>
    exact ⟨'M', file.toList ++ '=' :: path.toList, by simp [text], by decide⟩
  | annotate value =>
    exact ⟨'a', "nnotate_code=".toList ++ value.toList, String.toList_append, by decide⟩

namespace Setting.Readable

variable {s : Setting} (h : s.Readable)

include h

theorem valueText_text : ValueText s.text := by
  rw [s.text_eq]
  exact valueText_keyed_iff.mpr ⟨h.key_noComma, h.value⟩

theorem trimmed_text : trimmed s.text = s.text := by
  obtain ⟨c, cs, htext, hc⟩ := s.exists_text_eq_cons
  have hhead : ∀ d, s.text.toList.head? = some d → ¬ Text.WhiteSpace d := by
    intro d hd
    rw [htext] at hd
    exact Option.some.inj hd ▸ hc
  have hends : Text.Unpadded s.text.toList := ⟨hhead, h.valueText_text.noBlankEnd⟩
  rw [trimmed, hends.trim_eq, String.ofList_toList]

theorem entryKey_text : entryKey s.text = s.key := by
  rw [s.text_eq, entryKey_keyed h.key_noSign]

end Setting.Readable

/-- The entries for readable settings are read as they stand. -/
theorem parameterEntries_texts {settings : List Setting} (h : ∀ s ∈ settings, s.Readable) :
    parameterEntries (joinEntries (settings.map Setting.text)) = settings.map Setting.text := by
  have hconsists : ConsistsOf (joinEntries (settings.map Setting.text))
      (settings.map Setting.text) := by
    refine ⟨rfl, ?_⟩
    intro entry hentry
    obtain ⟨s, hs, rfl⟩ := List.mem_map.mp hentry
    exact (h s hs).valueText_text.noComma
  have htrimmed : (settings.map Setting.text).map trimmed = settings.map Setting.text := by
    rw [List.map_map]
    exact List.map_congr_left fun s hs => (h s hs).trimmed_text
  rw [hconsists.parameterEntries_eq, htrimmed, List.filter_eq_self]
  intro entry hentry
  obtain ⟨s, -, rfl⟩ := List.mem_map.mp hentry
  obtain ⟨c, cs, htext, -⟩ := s.exists_text_eq_cons
  have hne : s.text ≠ "" := by
    intro hempty
    rw [hempty] at htext
    cases htext
  exact decide_eq_true hne

/-- A configuration that can be asked for is described by the entries of its settings. -/
theorem ofParameter_texts {c : Config} (h : c.Expressible) :
    Config.ofParameter (joinEntries (c.settings.map Setting.text)) = .ok c := by
  have hreadable := readable_of_expressible h
  have hparse : (c.settings.map Setting.text).mapM Setting.parse = .ok c.settings := by
    rw [mapM_eq_ok_iff, List.map_map]
    exact List.map_congr_left fun s hs => (hreadable s hs).reads
  have hcheck : c.check = .ok c := by
    refine if_neg ?_
    intro hclash
    rcases h.noClash with hmodule | hpaths
    · rw [hmodule] at hclash
      cases hclash.1
    · cases hmode : c.paths with
      | importPath => exact hclash.2 hmode
      | sourceRelative => exact hpaths hmode
  rw [Config.ofParameter, parameterEntries_texts hreadable, hparse]
  show (c.settings.foldl Config.set {}).check = _
  rw [c.foldl_set_settings, hcheck]

/-- Entries of different keys are reordered by every permutation. -/
theorem reorderedByKey_of_perm {entries entries' : List String} (hperm : entries'.Perm entries)
    (hkeys : (entries.map fun e => entryKey (trimmed e)).Nodup) :
    ReorderedByKey entries entries' where
  perm := hperm
  sameKey key := by
    have hfilter : ∀ e ∈ entries.filter (fun e => entryKey (trimmed e) = key),
        e ∈ entries ∧ entryKey (trimmed e) = key := by
      intro e he
      obtain ⟨hmem, hkey⟩ := List.mem_filter.mp he
      exact ⟨hmem, of_decide_eq_true hkey⟩
    have hrefl {es : List String} : es.Pairwise fun _ _ => True :=
      List.pairwise_of_forall fun _ _ => trivial
    -- There is at most one entry with the key, so there is nothing to reorder.
    have hone : ∀ a b, a ∈ entries'.filter (fun e => entryKey (trimmed e) = key) →
        b ∈ entries.filter (fun e => entryKey (trimmed e) = key) → True → True → a = b := by
      intro a b ha hb _ _
      obtain ⟨hmemA, hkeyA⟩ := hfilter a ((hperm.filter _).mem_iff.mp ha)
      obtain ⟨hmemB, hkeyB⟩ := hfilter b hb
      exact List.inj_on_of_nodup_map hkeys hmemA hmemB (hkeyA.trans hkeyB.symm)
    exact (hperm.filter _).eq_of_pairwise hone hrefl hrefl

/-- The entries of readable settings, in any order, describe what they describe in theirs. -/
theorem ofParameter_eq_of_perm {c : Config} {settings : List Setting}
    (h : ∀ s ∈ settings, s.Readable) (hkeys : (settings.map Setting.key).Nodup)
    (hc : Config.ofParameter (joinEntries (settings.map Setting.text)) = .ok c)
    {entries : List String} (hperm : entries.Perm (settings.map Setting.text)) :
    Config.ofParameter (joinEntries entries) = .ok c := by
  have hcommas : ∀ entry ∈ settings.map Setting.text, ',' ∉ entry.toList := by
    intro entry hentry
    obtain ⟨s, hs, rfl⟩ := List.mem_map.mp hentry
    exact (h s hs).valueText_text.noComma
  have htextKeys : (settings.map Setting.text).map (fun e => entryKey (trimmed e)) =
      settings.map Setting.key := by
    rw [List.map_map]
    refine List.map_congr_left fun s hs => ?_
    rw [Function.comp_apply, (h s hs).trimmed_text, (h s hs).entryKey_text]
  have hreordered := reorderedByKey_of_perm hperm (by rw [htextKeys]; exact hkeys)
  have hconsists : ConsistsOf (joinEntries entries) entries :=
    ⟨rfl, fun entry hentry => hcommas entry (hperm.mem_iff.mp hentry)⟩
  exact (ofParameter_eq_ok_of_reordered ⟨rfl, hcommas⟩ hconsists hreordered c).mpr hc

/-- **Configurations and parameters**: a parameter describes exactly the configurations in which

    * a module does not stand beside output names that do not follow import paths,
    * the module and the import paths have no comma and do not end with a blank,
    * the files with import paths have a name without commas and equals signs,

    and each of them is described by the entries of its settings in any order: one for the paths,
    one for the module, if there is one, and one for each import path. -/
theorem described_iff_expressible (c : Config) :
    ((∃ parameter, Config.ofParameter parameter = .ok c) ↔ c.Expressible) ∧
      (c.Expressible → ∀ entries, entries.Perm (c.settings.map Setting.text) →
        Config.ofParameter (joinEntries entries) = .ok c) := by
  refine ⟨⟨?_, fun h => ⟨_, ofParameter_texts h⟩⟩, ?_⟩
  · intro hdescribed
    obtain ⟨parameter, hparameter⟩ := hdescribed
    exact expressible_of_ofParameter hparameter
  · intro h entries hperm
    exact ofParameter_eq_of_perm (readable_of_expressible h) c.nodup_map_key_settings
      (ofParameter_texts h) hperm

/-- A module and an import path with an equals sign, blanks in front of it included. -/
def acmeConfig : Config :=
  { moduleName := some "acme", importPaths := Std.ExtTreeMap.ofList [("a.proto", " acme/v=1")] }

theorem acmeConfig_expressible : acmeConfig.Expressible := by
  have himport {file path : String} (h : acmeConfig.importPaths[file]? = some path) :
      file = "a.proto" ∧ path = " acme/v=1" := by
    obtain ⟨hfile, hpath⟩ : "a.proto" = file ∧ " acme/v=1" = path := by
      simpa [acmeConfig, Std.ExtTreeMap.ofList_singleton, Std.ExtTreeMap.getElem?_insert] using h
    exact ⟨hfile.symm, hpath.symm⟩
  refine ⟨.inr (by decide), ?_, ?_, ?_⟩
  · intro name hname
    cases hname
    decide
  · intro file path hpath
    obtain ⟨rfl, -⟩ := himport hpath
    exact ⟨by decide, by decide, by decide⟩
  · intro file path hpath
    obtain ⟨-, rfl⟩ := himport hpath
    decide

theorem acmeConfig_described :
    acmeConfig.Expressible ∧
      Config.ofParameter "Ma.proto= acme/v=1,module=acme,paths=import" = .ok acmeConfig := by
  refine ⟨acmeConfig_expressible, ?_⟩
  have hperm : ["Ma.proto= acme/v=1", "module=acme", "paths=import"].Perm
      (acmeConfig.settings.map Setting.text) := by decide
  have hjoined : joinEntries ["Ma.proto= acme/v=1", "module=acme", "paths=import"] =
      "Ma.proto= acme/v=1,module=acme,paths=import" := by decide
  rw [← hjoined]
  exact (described_iff_expressible acmeConfig).2 acmeConfig_expressible _ hperm

end SchemaSummary
