import SchemaSummary.Proofs.Generation.Parameter

/-! # Configurations from parameters

  What the entries of a parameter add up to. Of several entries with one key the last one counts,
  and whether a module may stand there is judged by what is left in the end.
-/

namespace SchemaSummary

/-! ## The last one counts -/

/-- The path mode that a setting chooses. -/
def Setting.mode? : Setting → Option PathMode
  | .paths mode => some mode
  | .moduleName _ | .importPath _ _ | .annotate _ => none

/-- The module that a setting gives. -/
def Setting.module? : Setting → Option String
  | .moduleName name => some name
  | .paths _ | .importPath _ _ | .annotate _ => none

/-- The import path that a setting gives to a schema file. -/
def Setting.importPath? (file : String) : Setting → Option String
  | .importPath f path => if f = file then some path else none
  | .paths _ | .moduleName _ | .annotate _ => none

/-- What each setting either decides or leaves alone is decided by the last one that does. -/
theorem foldl_set_last {α : Type} {view : Config → Option α} {ofSetting? : Setting → Option α}
    (hstep : ∀ c s, view (c.set s) = (ofSetting? s).or (view c)) (settings : List Setting)
    (c : Config) :
    view (settings.foldl Config.set c) =
      (settings.filterMap ofSetting?).getLast?.or (view c) := by
  induction settings generalizing c with
  | nil => rfl
  | cons s settings ih =>
    rw [List.foldl_cons, ih, hstep, List.filterMap_cons]
    cases ofSetting? s with
    | none => rfl
    | some a =>
      -- What the setting decides counts only if none after it decides the same.
      cases hlast : (settings.filterMap ofSetting?).getLast? with
      | none => simp [List.getLast?_cons, hlast]
      | some b => simp [List.getLast?_cons, hlast]

theorem foldl_set_paths (settings : List Setting) (c : Config) :
    (settings.foldl Config.set c).paths =
      (settings.filterMap Setting.mode?).getLast?.getD c.paths := by
  have hlast : some (settings.foldl Config.set c).paths =
      (settings.filterMap Setting.mode?).getLast?.or (some c.paths) := by
    refine @foldl_set_last _ (fun c => some c.paths) _ ?_ settings c
    intro c s
    cases s <;> rfl
  rw [Option.or_some] at hlast
  exact Option.some.inj hlast

theorem foldl_set_moduleName (settings : List Setting) (c : Config) :
    (settings.foldl Config.set c).moduleName =
      (settings.filterMap Setting.module?).getLast?.or c.moduleName := by
  refine @foldl_set_last _ Config.moduleName _ ?_ settings c
  intro c s
  cases s <;> rfl

theorem getElem?_foldl_set (settings : List Setting) (c : Config) (file : String) :
    (settings.foldl Config.set c).importPaths[file]? =
      (settings.filterMap (Setting.importPath? file)).getLast?.or c.importPaths[file]? := by
  refine @foldl_set_last _ (fun c => c.importPaths[file]?) _ ?_ settings c
  intro c s
  cases s with
  | paths mode => rfl
  | moduleName name => rfl
  | importPath f path =>
    simp only [Config.set, Setting.importPath?, Std.ExtTreeMap.getElem?_insert,
      Std.compare_eq_iff_eq]
    split <;> rfl
  | annotate value => rfl

/-! ## Settings of entries -/

/-- The key of the entries for a setting. -/
def Setting.key : Setting → String
  | .paths _ => "paths"
  | .moduleName _ => "module"
  | .importPath file _ => "M" ++ file
  | .annotate _ => "annotate_code"

/-- The value of the entries for a setting. -/
def Setting.value : Setting → String
  | .paths mode => mode.text
  | .moduleName name => name
  | .importPath _ path => path
  | .annotate value => value

theorem Setting.text_eq (s : Setting) : s.text = s.key ++ "=" ++ s.value := by
  cases s <;> rfl

/-- A key that begins with another letter is none of an import path. -/
theorem importKey_ne {key : String} (h : key.toList.head? ≠ some 'M') (file : String) :
    "M" ++ file ≠ key := by
  intro heq
  rw [← heq] at h
  exact h (by simp)

theorem PathMode.eq_text_of_ofText {value : String} {mode : PathMode}
    (h : PathMode.ofText value = .ok mode) : value = mode.text := by
  unfold PathMode.ofText at h
  split at h
  · rename_i hvalue
    cases h
    exact hvalue
  · split at h
    · rename_i hvalue
      cases h
      exact hvalue
    · cases h

/-- An entry has the key and the value of its setting. -/
theorem entry_of_parse {entry : String} {s : Setting} (h : Setting.parse entry = .ok s) :
    entryKey entry = s.key ∧ entryValue entry = s.value := by
  rw [parse_eq] at h
  split at h
  · rename_i hkey
    cases hmode : PathMode.ofText (entryValue entry) with
    | error e => rw [hmode] at h; cases h
    | ok mode => rw [hmode] at h; cases h; exact ⟨hkey, PathMode.eq_text_of_ofText hmode⟩
  split at h
  · rename_i hkey
    cases h
    exact ⟨hkey, rfl⟩
  split at h
  · rename_i hkey
    split at h
    · cases h
      exact ⟨hkey, rfl⟩
    · cases h
  split at h
  · rename_i c file hkey
    cases h
    refine ⟨?_, rfl⟩
    rw [← String.toList_inj, hkey]
    simp [Setting.key]
  · cases h

/-- The path mode in the value of an entry. -/
def entryMode (entry : String) : PathMode :=
  if entryValue entry = "source_relative" then .sourceRelative else .importPath

theorem mode?_of_parse {entry : String} {s : Setting} (h : Setting.parse entry = .ok s) :
    s.mode? = if entryKey entry = "paths" then some (entryMode entry) else none := by
  obtain ⟨hkey, hvalue⟩ := entry_of_parse h
  rw [entryMode, hkey, hvalue]
  cases s with
  | paths mode => cases mode <;> rfl
  | moduleName name => rfl
  | importPath file path => exact (if_neg (importKey_ne (by decide) file)).symm
  | annotate value => rfl

theorem module?_of_parse {entry : String} {s : Setting} (h : Setting.parse entry = .ok s) :
    s.module? = if entryKey entry = "module" then some (entryValue entry) else none := by
  obtain ⟨hkey, hvalue⟩ := entry_of_parse h
  rw [hkey, hvalue]
  cases s with
  | paths mode => rfl
  | moduleName name => rfl
  | importPath file path => exact (if_neg (importKey_ne (by decide) file)).symm
  | annotate value => rfl

theorem importPath?_of_parse {file entry : String} {s : Setting}
    (h : Setting.parse entry = .ok s) : s.importPath? file =
      if entryKey entry = "M" ++ file then some (entryValue entry) else none := by
  obtain ⟨hkey, hvalue⟩ := entry_of_parse h
  rw [hkey, hvalue]
  have hpaths : "paths" ≠ "M" ++ file := (importKey_ne (by decide) file).symm
  have hmodule : "module" ≠ "M" ++ file := (importKey_ne (by decide) file).symm
  have hannotate : "annotate_code" ≠ "M" ++ file := (importKey_ne (by decide) file).symm
  cases s with
  | paths mode => exact (if_neg hpaths).symm
  | moduleName name => exact (if_neg hmodule).symm
  | importPath f path =>
    simp [Setting.importPath?, Setting.key, Setting.value, String.append_right_inj]
  | annotate value => exact (if_neg hannotate).symm

theorem acceptable_of_map_parse {entries : List String} {settings : List Setting}
    (h : entries.map Setting.parse = settings.map .ok) : ∀ entry ∈ entries, Acceptable entry := by
  intro entry hentry
  have hmem : Setting.parse entry ∈ settings.map Except.ok := h ▸ List.mem_map_of_mem hentry
  obtain ⟨s, -, hs⟩ := List.mem_map.mp hmem
  exact acceptable_of_parse hs.symm

/-- What the settings say about something that the entries with one key decide. -/
theorem filterMap_of_parse {α : Type} {key : String} {ofSetting? : Setting → Option α}
    {ofEntry : String → α}
    (hstep : ∀ entry s, Setting.parse entry = .ok s →
      ofSetting? s = if entryKey entry = key then some (ofEntry entry) else none)
    {entries : List String} {settings : List Setting}
    (h : entries.map Setting.parse = settings.map .ok) :
    settings.filterMap ofSetting? = (entries.filter (entryKey · = key)).map ofEntry := by
  calc settings.filterMap ofSetting?
      = (settings.map ofSetting?).filterMap id := by
        rw [List.filterMap_map]
        rfl
    _ = (entries.map fun e => if entryKey e = key then some (ofEntry e) else none).filterMap
          id := by
        rw [map_eq_map_of_map_ok hstep h]
    _ = (entries.filter (entryKey · = key)).map ofEntry := by
        rw [List.filterMap_map, ← List.filterMap_eq_map, List.filterMap_filter]
        simp

/-! ## Refused parameters -/

/-- Entries that cannot stand together: a module, and an end of the path modes in which output
    names do not follow import paths. -/
def Clash (entries : List String) : Prop :=
  (∃ entry ∈ entries, entryKey entry = "module") ∧
    (entries.filter (entryKey · = "paths")).getLast? = some "paths=source_relative"

theorem check_eq_error_iff {c : Config} {e : Error} :
    c.check = .error e ↔ c.moduleName.isSome ∧ c.paths = .sourceRelative ∧
      e = .invalidParameter "paths=source_relative" .moduleClash := by
  unfold Config.check
  cases hpaths : c.paths with
  | importPath => simp
  | sourceRelative =>
    by_cases hmodule : c.moduleName.isSome = true
    · simp [hmodule, PathMode.text, eq_comm]
    · simp [hmodule]

/-- An acceptable entry for the second path mode has one spelling. -/
theorem entryMode_eq_sourceRelative_iff {entry : String} (h : Acceptable entry)
    (hkey : entryKey entry = "paths") :
    entryMode entry = .sourceRelative ↔ entry = "paths=source_relative" := by
  unfold entryMode
  rcases entry_cases entry with ⟨-, hbare, -⟩ | ⟨-, hkeyed⟩
  · -- A bare `paths` is not acceptable.
    rw [hbare] at hkey
    subst hkey
    obtain ⟨s, hs⟩ := exists_parse_of_acceptable h
    cases hs
  · rw [hkey] at hkeyed
    constructor
    · intro hmode
      split at hmode
      · rename_i hvalue
        rw [hkeyed, hvalue]
        rfl
      · cases hmode
    · intro heq
      rw [heq]
      rfl

/-- The settings of acceptable entries clash where the entries do. -/
theorem check_settings_eq_error_iff {entries : List String} {settings : List Setting}
    (h : entries.map Setting.parse = settings.map .ok) {e : Error} :
    (settings.foldl Config.set {}).check = .error e ↔
      Clash entries ∧ e = .invalidParameter "paths=source_relative" .moduleClash := by
  have hacceptable := acceptable_of_map_parse h
  have hmodule : (settings.foldl Config.set {}).moduleName.isSome = true ↔
      ∃ entry ∈ entries, entryKey entry = "module" := by
    rw [foldl_set_moduleName, filterMap_of_parse (fun _ _ => module?_of_parse) h]
    simp
  have hpaths : (settings.foldl Config.set {}).paths = .sourceRelative ↔
      (entries.filter (entryKey · = "paths")).getLast? = some "paths=source_relative" := by
    rw [foldl_set_paths, filterMap_of_parse (fun _ _ => mode?_of_parse) h, List.getLast?_map]
    cases hlast : (entries.filter (entryKey · = "paths")).getLast? with
    | none => simp
    | some entry =>
      obtain ⟨hentry, hkey⟩ := List.mem_filter.mp (List.mem_of_getLast? hlast)
      simpa using entryMode_eq_sourceRelative_iff (hacceptable entry hentry) (by simpa using hkey)
  rw [check_eq_error_iff, hmodule, hpaths, Clash, and_assoc]

/-- **Refused parameters**: the first entry that is not acceptable is reported, or else a
    clash. -/
theorem ofParameter_eq_error_iff {parameter : String} {e : Error} :
    Config.ofParameter parameter = .error e ↔
      (∃ before entry after, parameterEntries parameter = before ++ entry :: after ∧
        (∀ x ∈ before, Acceptable x) ∧ ¬ Acceptable entry ∧ e = refusal entry) ∨
      ((∀ entry ∈ parameterEntries parameter, Acceptable entry) ∧
        Clash (parameterEntries parameter) ∧
        e = .invalidParameter "paths=source_relative" .moduleClash) := by
  rw [Config.ofParameter, bind_eq_error_iff, mapM_eq_error_iff]
  simp only [exists_parse_iff, parse_eq_error_iff]
  apply or_congr Iff.rfl
  constructor
  · intro herror
    obtain ⟨settings, hsettings, hcheck⟩ := herror
    rw [mapM_eq_ok_iff] at hsettings
    exact ⟨acceptable_of_map_parse hsettings,
      (check_settings_eq_error_iff hsettings).mp hcheck⟩
  · intro herror
    obtain ⟨hacceptable, hclash⟩ := herror
    obtain ⟨settings, hsettings⟩ :=
      exists_mapM_eq_ok fun entry hentry => exists_parse_of_acceptable (hacceptable entry hentry)
    exact ⟨settings, hsettings,
      (check_settings_eq_error_iff (mapM_eq_ok_iff.mp hsettings)).mpr hclash⟩

/-- A parameter describes a configuration exactly if there is nothing to refuse. -/
theorem exists_ofParameter_iff {parameter : String} :
    (∃ c, Config.ofParameter parameter = .ok c) ↔
      (∀ entry ∈ parameterEntries parameter, Acceptable entry) ∧
        ¬ Clash (parameterEntries parameter) := by
  constructor
  · intro hconfig
    obtain ⟨c, h⟩ := hconfig
    rw [Config.ofParameter, bind_eq_ok_iff] at h
    obtain ⟨settings, hsettings, hcheck⟩ := h
    rw [mapM_eq_ok_iff] at hsettings
    refine ⟨acceptable_of_map_parse hsettings, ?_⟩
    intro hclash
    have herror := (check_settings_eq_error_iff hsettings).mpr ⟨hclash, rfl⟩
    rw [hcheck] at herror
    cases herror
  · intro hfine
    obtain ⟨hacceptable, hclash⟩ := hfine
    cases h : Config.ofParameter parameter with
    | ok c => exact ⟨c, rfl⟩
    | error e =>
      rcases ofParameter_eq_error_iff.mp h with ⟨before, entry, after, heq, -, hentry, -⟩ | h
      · exact absurd (hacceptable entry (by simp [heq])) hentry
      · exact absurd h.2.1 hclash

/-- What it means that a configuration holds what the last entries with each key say. -/
structure Config.IsLast (c : Config) (entries : List String) : Prop where
  paths : c.paths =
    ((entries.filter (entryKey · = "paths")).map entryMode).getLast?.getD .importPath
  moduleName : c.moduleName = ((entries.filter (entryKey · = "module")).map entryValue).getLast?
  importPaths : ∀ file, c.importPaths[file]? =
    ((entries.filter (entryKey · = "M" ++ file)).map entryValue).getLast?

theorem Config.eq_of_getElem? {c c' : Config} (hpaths : c.paths = c'.paths)
    (hmodule : c.moduleName = c'.moduleName)
    (himport : ∀ file : String, c.importPaths[file]? = c'.importPaths[file]?) : c = c' := by
  cases c
  cases c'
  congr
  exact Std.ExtTreeMap.ext_getElem? himport

theorem Config.IsLast.eq {c c' : Config} {entries : List String} (h : c.IsLast entries)
    (h' : c'.IsLast entries) : c = c' :=
  Config.eq_of_getElem? (h.paths.trans h'.paths.symm) (h.moduleName.trans h'.moduleName.symm)
    fun file => (h.importPaths file).trans (h'.importPaths file).symm

theorem isLast_of_ofParameter {parameter : String} {c : Config}
    (h : Config.ofParameter parameter = .ok c) : c.IsLast (parameterEntries parameter) := by
  rw [Config.ofParameter, bind_eq_ok_iff] at h
  obtain ⟨settings, hsettings, hcheck⟩ := h
  rw [mapM_eq_ok_iff] at hsettings
  unfold Config.check at hcheck
  split at hcheck
  · cases hcheck
  · cases hcheck
    constructor
    · rw [foldl_set_paths, filterMap_of_parse (fun _ _ => mode?_of_parse) hsettings]
    · rw [foldl_set_moduleName, filterMap_of_parse (fun _ _ => module?_of_parse) hsettings]
      exact Option.or_none
    · intro file
      rw [getElem?_foldl_set, filterMap_of_parse (fun _ _ => importPath?_of_parse) hsettings]
      exact Option.or_none

/-- **Described configurations**: where there is nothing to refuse, a configuration is told by the
    last entry with each key. -/
theorem ofParameter_eq_ok_iff {parameter : String} {c : Config} :
    Config.ofParameter parameter = .ok c ↔
      (∀ entry ∈ parameterEntries parameter, Acceptable entry) ∧
        ¬ Clash (parameterEntries parameter) ∧ c.IsLast (parameterEntries parameter) := by
  rw [← and_assoc, ← exists_ofParameter_iff]
  constructor
  · intro h
    exact ⟨⟨c, h⟩, isLast_of_ofParameter h⟩
  · intro h
    obtain ⟨⟨c', h'⟩, hlast⟩ := h
    rw [h', (isLast_of_ofParameter h').eq hlast]

/-- With a module, output names follow import paths. -/
theorem paths_of_ofParameter {parameter : String} {c : Config} {m : String}
    (h : Config.ofParameter parameter = .ok c) (hm : c.moduleName = some m) :
    c.paths = .importPath := by
  rw [Config.ofParameter, bind_eq_ok_iff] at h
  obtain ⟨settings, -, hcheck⟩ := h
  unfold Config.check at hcheck
  split at hcheck
  · cases hcheck
  · rename_i hfine
    cases hcheck
    have hsome : (settings.foldl Config.set {}).moduleName.isSome = true := by rw [hm]; rfl
    exact Decidable.byContradiction fun hne => hfine ⟨hsome, hne⟩

end SchemaSummary
