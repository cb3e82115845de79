import SchemaSummary.Generation.Config
import SchemaSummary.Proofs.Generation.Sequence
import SchemaSummary.Proofs.Text.Blanks

/-! # Parameters

  Which parameters describe a configuration, and what is reported of the others.

  `HasEntries` says which entries a parameter has, `Acceptable` what an entry may look like,
  `refusal` what is reported of one that does not, and `Clash` which entries cannot stand
  together. `ofParameter_eq_error_iff` says that nothing else is refused and which refusal comes
  first.
-/

namespace SchemaSummary

/-! ## The entries between commas -/

/-- What it means that a parameter consists of the given entries. -/
structure ConsistsOf (parameter : String) (entries : List String) : Prop where
  joined : joinEntries entries = parameter
  noComma : ∀ entry ∈ entries, ',' ∉ entry.toList

/-- Every parameter consists of what stands between its commas. -/
theorem exists_consistsOf (parameter : String) : ∃ entries, ConsistsOf parameter entries := by
  refine ⟨(parameter.toList.splitOn ',').map String.ofList, ?_, ?_⟩
  · rw [joinEntries, ← String.toList_inj, String.toList_intercalate, List.map_map]
    have hparts : String.toList ∘ String.ofList = id := by
      funext cs
      exact String.toList_ofList
    rw [hparts, List.map_id]
    exact List.intercalate_splitOn ','
  · intro entry hentry
    obtain ⟨part, hpart, rfl⟩ := List.mem_map.mp hentry
    rw [String.toList_ofList]
    exact Text.notMem_of_mem_splitOn hpart

/-- An entry without the blanks around it. -/
def trimmed (entry : String) : String := String.ofList (Text.trim entry.toList)

/-- The entries that are read are those between the commas, without blanks around them. -/
theorem ConsistsOf.parameterEntries_eq {parameter : String} {entries : List String}
    (h : ConsistsOf parameter entries) :
    parameterEntries parameter = (entries.map trimmed).filter (· ≠ "") := by
  obtain ⟨rfl, hcommas⟩ := h
  -- No entries at all are joined to what a single empty one is, so they are a case of their own.
  by_cases hnil : entries = []
  · rw [hnil]
    rfl
  · have hsplit : (joinEntries entries).toList.splitOn ',' = entries.map String.toList := by
      rw [joinEntries, String.toList_intercalate]
      refine List.splitOn_intercalate ',' ?_ (by simpa using hnil)
      intro part hpart
      obtain ⟨entry, hentry, rfl⟩ := List.mem_map.mp hpart
      exact hcommas entry hentry
    have hempty (parts : List (List Char)) : (parts.map String.ofList).filter (· ≠ "") =
        (parts.filter fun cs => !cs.isEmpty).map String.ofList := by
      rw [List.filter_map]
      congr 1
      apply List.filter_congr
      intro cs _
      simp only [Function.comp_apply, ne_eq, String.ofList_eq_empty_iff]
      cases cs <;> rfl
    have htrimmed : trimmed = String.ofList ∘ Text.trim ∘ String.toList := rfl
    rw [parameterEntries, hsplit, htrimmed, ← List.map_map, ← List.map_map, hempty]

/-! ### Blanks around entries -/

/-- Whether a text consists of nothing but blanks. -/
def Blank (text : String) : Prop := ∀ c ∈ text.toList, Text.WhiteSpace c

theorem trimmed_eq_empty_iff {entry : String} : trimmed entry = "" ↔ Blank entry := by
  rw [trimmed, String.ofList_eq_empty_iff, Text.trim_eq_nil_iff, Blank]

theorem trimmed_padded {before after : String} (hbefore : Blank before) (hafter : Blank after)
    (entry : String) : trimmed (before ++ entry ++ after) = trimmed entry := by
  unfold trimmed
  rw [String.toList_append, String.toList_append, Text.trim_append hbefore hafter]

/-- What is taken off an entry are blanks. -/
theorem exists_eq_append_trimmed (entry : String) :
    ∃ before after, Blank before ∧ Blank after ∧ entry = before ++ trimmed entry ++ after := by
  obtain ⟨before, after, hbefore, hafter, heq⟩ := Text.exists_append_trim entry.toList
  have hblank {cs : List Char} (h : ∀ c ∈ cs, Text.WhiteSpace c) : Blank (String.ofList cs) := by
    rwa [Blank, String.toList_ofList]
  refine ⟨String.ofList before, String.ofList after, hblank hbefore, hblank hafter, ?_⟩
  rw [← String.toList_inj]
  simpa [trimmed] using heq

theorem unpadded_trimmed (entry : String) : Text.Unpadded (trimmed entry).toList := by
  rw [trimmed, String.toList_ofList]
  exact Text.unpadded_trim entry.toList

/-- What the parts of a parameter leave as its entries: each part without the blanks around it,
    unless it is blank altogether. -/
inductive Leaves : List String → List String → Prop
  | nil : Leaves [] []
  | blank {part : String} {parts entries : List String} (hpart : Blank part)
      (hrest : Leaves parts entries) : Leaves (part :: parts) entries
  | entry {before entry after : String} {parts entries : List String} (hbefore : Blank before)
      (hafter : Blank after) (hne : entry ≠ "") (hentry : Text.Unpadded entry.toList)
      (hrest : Leaves parts entries) :
      Leaves ((before ++ entry ++ after) :: parts) (entry :: entries)

theorem leaves_iff {parts entries : List String} :
    Leaves parts entries ↔ (parts.map trimmed).filter (· ≠ "") = entries := by
  constructor
  · intro h
    induction h with
    | nil => rfl
    | blank hpart hrest ih =>
      rw [List.map_cons, List.filter_cons_of_neg, ih]
      simpa using trimmed_eq_empty_iff.mpr hpart
    | @entry before entry after parts entries hbefore hafter hne hentry hrest ih =>
      have htrimmed : trimmed (before ++ entry ++ after) = entry := by
        rw [trimmed_padded hbefore hafter, trimmed, hentry.trim_eq, String.ofList_toList]
      rw [List.map_cons, htrimmed, List.filter_cons_of_pos (by simpa using hne), ih]
  · intro h
    subst h
    induction parts with
    | nil => exact .nil
    | cons part parts ih =>
      by_cases hpart : trimmed part = ""
      · rw [List.map_cons, List.filter_cons_of_neg (by simpa using hpart)]
        exact .blank (trimmed_eq_empty_iff.mp hpart) ih
      · rw [List.map_cons, List.filter_cons_of_pos (by simpa using hpart)]
        obtain ⟨before, after, hbefore, hafter, hparts⟩ := exists_eq_append_trimmed part
        have hleaves := Leaves.entry hbefore hafter hpart (unpadded_trimmed part) ih
        rwa [← hparts] at hleaves

/-- What it means that a parameter has the given entries: they are what is left of the parts
    between its commas. -/
def HasEntries (parameter : String) (entries : List String) : Prop :=
  ∃ parts, ConsistsOf parameter parts ∧ Leaves parts entries

/-- The entries that are read are those that the parameter has. -/
theorem hasEntries_iff {parameter : String} {entries : List String} :
    HasEntries parameter entries ↔ parameterEntries parameter = entries := by
  constructor
  · intro h
    obtain ⟨parts, hparts, hleaves⟩ := h
    rw [hparts.parameterEntries_eq, leaves_iff.mp hleaves]
  · intro h
    obtain ⟨parts, hparts⟩ := exists_consistsOf parameter
    exact ⟨parts, hparts, leaves_iff.mpr (hparts.parameterEntries_eq ▸ h)⟩

/-! ## Keys and values -/

/-- What stands before the first equals sign of an entry, or all of it if it has none. -/
def entryKey (entry : String) : String := String.ofList (Text.cut '=' entry.toList).1

/-- What follows the first equals sign of an entry, or nothing if it has none. -/
def entryValue (entry : String) : String :=
  String.ofList ((Text.cut '=' entry.toList).2.getD [])

theorem entryKey_bare {entry : String} (h : '=' ∉ entry.toList) : entryKey entry = entry := by
  rw [entryKey, Text.cut_of_notMem h, String.ofList_toList]

theorem entryValue_bare {entry : String} (h : '=' ∉ entry.toList) : entryValue entry = "" := by
  rw [entryValue, Text.cut_of_notMem h]
  rfl

theorem cut_keyed {key : String} (h : '=' ∉ key.toList) (value : String) :
    Text.cut '=' (key ++ "=" ++ value).toList = (key.toList, some value.toList) := by
  rw [← Text.cut_append_cons h]
  simp

theorem entryKey_keyed {key : String} (h : '=' ∉ key.toList) (value : String) :
    entryKey (key ++ "=" ++ value) = key := by
  rw [entryKey, cut_keyed h, String.ofList_toList]

theorem entryValue_keyed {key : String} (h : '=' ∉ key.toList) (value : String) :
    entryValue (key ++ "=" ++ value) = value := by
  rw [entryValue, cut_keyed h, Option.getD_some, String.ofList_toList]

/-- An entry is a key alone, or a key and a value with an equals sign between them. -/
theorem entry_cases (entry : String) :
    ('=' ∉ entry.toList ∧ entryKey entry = entry ∧ entryValue entry = "") ∨
      ('=' ∉ (entryKey entry).toList ∧ entry = entryKey entry ++ "=" ++ entryValue entry) := by
  by_cases h : '=' ∈ entry.toList
  · right
    obtain ⟨key, value, heq, hkey⟩ := List.eq_append_cons_of_mem h
    have hentry : entry = String.ofList key ++ "=" ++ String.ofList value := by
      rw [← String.toList_inj, heq]
      simp
    have hkey' : '=' ∉ (String.ofList key).toList := by simpa using hkey
    rw [hentry, entryKey_keyed hkey', entryValue_keyed hkey']
    exact ⟨hkey', rfl⟩
  · exact .inl ⟨h, entryKey_bare h, entryValue_bare h⟩

/-- An entry is told by its key and value alone, but for whether it has an equals sign. -/
theorem parse_eq (entry : String) : Setting.parse entry =
    if entryKey entry = "paths" then (PathMode.ofText (entryValue entry)).map .paths
    else if entryKey entry = "module" then .ok (.moduleName (entryValue entry))
    else if entryKey entry = "annotate_code" then
      if Setting.truthValues.contains (entryValue entry) then .ok (.annotate (entryValue entry))
      else .error (.invalidParameter entry .truthValue)
    else
      match (entryKey entry).toList with
      | 'M' :: c :: file => .ok (.importPath (String.ofList (c :: file)) (entryValue entry))
      | _ => .error (.invalidParameter entry .unknown) := by
  have hkey (word : String) :
      (Text.cut '=' entry.toList).1 = word.toList ↔ entryKey entry = word := by
    rw [entryKey, ← String.toList_inj, String.toList_ofList]
  have hlist : (entryKey entry).toList = (Text.cut '=' entry.toList).1 := String.toList_ofList
  simp only [Setting.parse, hkey, entryValue, hlist]
  rfl

/-! ## Acceptable entries -/

/-- What an entry may look like. -/
inductive Acceptable : String → Prop
  | paths (mode : PathMode) : Acceptable ("paths=" ++ mode.text)
  | bareModule : Acceptable "module"
  | moduleName (name : String) : Acceptable ("module=" ++ name)
  | bareAnnotate : Acceptable "annotate_code"
  | annotate {value : String} (hvalue : value ∈ ["", "true", "false"]) :
      Acceptable ("annotate_code=" ++ value)
  | bareImport {file : String} (hfile : file ≠ "") (hsign : '=' ∉ file.toList) :
      Acceptable ("M" ++ file)
  | importPath {file : String} (hfile : file ≠ "") (hsign : '=' ∉ file.toList) (path : String) :
      Acceptable ("M" ++ file ++ "=" ++ path)

/-- What is reported of an entry that is not acceptable. The mode of a bare `paths` is missing,
    and it is reported as an empty one. -/
def refusal (entry : String) : Error :=
  .invalidParameter (if entry = "paths" then "paths=" else entry)
    (if entryKey entry = "paths" then .pathMode
      else if entryKey entry = "annotate_code" then .truthValue
      else .unknown)

/-- An entry with the key `paths` is reported with its value, even if it has none. -/
theorem reported_paths {entry : String} (hkey : entryKey entry = "paths") :
    "paths=" ++ entryValue entry = if entry = "paths" then "paths=" else entry := by
  rcases entry_cases entry with ⟨-, hbare, hempty⟩ | ⟨-, hkeyed⟩
  · have hentry : entry = "paths" := hbare.symm.trans hkey
    rw [if_pos hentry, hempty]
    rfl
  · rw [hkey] at hkeyed
    have hne : entry ≠ "paths" := by
      intro heq
      have hlength := congrArg String.length (heq.symm.trans hkeyed)
      rw [String.length_append] at hlength
      have hkey : "paths".length < ("paths" ++ "=").length := by decide
      omega
    rw [if_neg hne]
    exact hkeyed.symm

/-- What is reported of an entry depends on its key alone. -/
theorem eq_refusal_of_parse {entry : String} {e : Error} (h : Setting.parse entry = .error e) :
    e = refusal entry := by
  rw [parse_eq] at h
  -- Every key has its own way to fail, and a module has none.
  by_cases hpaths : entryKey entry = "paths"
  · rw [if_pos hpaths, PathMode.ofText, reported_paths hpaths] at h
    rw [refusal, if_pos hpaths]
    split at h
    · cases h
    · split at h
      · cases h
      · cases h
        rfl
  · have hne : entry ≠ "paths" := by
      intro heq
      rw [heq] at hpaths
      exact hpaths (entryKey_bare (by decide))
    rw [if_neg hpaths] at h
    rw [refusal, if_neg hne, if_neg hpaths]
    split at h
    · cases h
    · split at h
      · rename_i hannotate
        rw [if_pos hannotate]
        split at h
        · cases h
        · cases h
          rfl
      · rename_i hannotate
        rw [if_neg hannotate]
        split at h
        · cases h
        · cases h
          rfl

theorem parse_keyed (key value : String) (h : '=' ∉ key.toList) :
    Setting.parse (key ++ "=" ++ value) =
      if key = "paths" then (PathMode.ofText value).map .paths
      else if key = "module" then .ok (.moduleName value)
      else if key = "annotate_code" then
        if Setting.truthValues.contains value then .ok (.annotate value)
        else .error (.invalidParameter (key ++ "=" ++ value) .truthValue)
      else
        match key.toList with
        | 'M' :: c :: file => .ok (.importPath (String.ofList (c :: file)) value)
        | _ => .error (.invalidParameter (key ++ "=" ++ value) .unknown) := by
  rw [parse_eq, entryKey_keyed h, entryValue_keyed h]

/-- An import path is read behind the name of its file. -/
theorem parse_eq_importPath {entry file : String} (hfile : file ≠ "")
    (hkey : entryKey entry = "M" ++ file) :
    Setting.parse entry = .ok (.importPath file (entryValue entry)) := by
  obtain ⟨c, cs, hcs⟩ := List.exists_cons_of_ne_nil (mt String.toList_eq_nil_iff.mp hfile)
  have hlist : (entryKey entry).toList = 'M' :: c :: cs := by
    rw [hkey]
    simp [hcs]
  have hne (word : String) (hword : word.toList.head? ≠ some 'M') : entryKey entry ≠ word := by
    intro heq
    rw [← heq, hlist] at hword
    exact hword rfl
  rw [parse_eq, if_neg (hne _ (by decide)), if_neg (hne _ (by decide)),
    if_neg (hne _ (by decide)), hlist]
  change Except.ok (Setting.importPath (String.ofList (c :: cs)) (entryValue entry)) = _
  rw [← hcs, String.ofList_toList]

/-- Acceptable entries have a setting. -/
theorem exists_parse_of_acceptable {entry : String} (h : Acceptable entry) :
    ∃ s, Setting.parse entry = .ok s := by
  cases h with
  | paths mode => cases mode <;> exact ⟨_, rfl⟩
  | bareModule => exact ⟨_, rfl⟩
  | moduleName name => exact ⟨_, parse_keyed "module" name (by decide)⟩
  | bareAnnotate => exact ⟨_, rfl⟩
  | @annotate value hvalue =>
    have hparse := parse_keyed "annotate_code" value (by decide)
    have hcontains : Setting.truthValues.contains value = true := List.contains_iff_mem.mpr hvalue
    rw [hcontains] at hparse
    exact ⟨_, hparse⟩
  | @bareImport file hfile hsign =>
    have hkey : entryKey ("M" ++ file) = "M" ++ file := entryKey_bare (by simpa using hsign)
    exact ⟨_, parse_eq_importPath hfile hkey⟩
  | @importPath file hfile hsign path =>
    have hkey : entryKey ("M" ++ file ++ "=" ++ path) = "M" ++ file :=
      entryKey_keyed (by simpa using hsign) path
    exact ⟨_, parse_eq_importPath hfile hkey⟩

/-- Only acceptable entries have a setting. -/
theorem acceptable_of_parse {entry : String} {s : Setting} (h : Setting.parse entry = .ok s) :
    Acceptable entry := by
  rw [parse_eq] at h
  by_cases hpaths : entryKey entry = "paths"
  · rw [if_pos hpaths, PathMode.ofText] at h
    rcases entry_cases entry with ⟨-, -, hempty⟩ | ⟨-, hkeyed⟩
    · -- The empty mode of a bare `paths` is none.
      rw [hempty] at h
      cases h
    · rw [hpaths] at hkeyed
      split at h
      · rename_i hvalue
        rw [hkeyed, hvalue]
        exact .paths .importPath
      · split at h
        · rename_i hvalue
          rw [hkeyed, hvalue]
          exact .paths .sourceRelative
        · cases h
  rw [if_neg hpaths] at h
  by_cases hmodule : entryKey entry = "module"
  · rcases entry_cases entry with ⟨-, hbare, -⟩ | ⟨-, hkeyed⟩
    · rw [hbare] at hmodule
      rw [hmodule]
      exact .bareModule
    · rw [hkeyed, hmodule]
      exact .moduleName _
  rw [if_neg hmodule] at h
  by_cases hannotate : entryKey entry = "annotate_code"
  · rw [if_pos hannotate] at h
    rcases entry_cases entry with ⟨-, hbare, -⟩ | ⟨-, hkeyed⟩
    · rw [hbare] at hannotate
      rw [hannotate]
      exact .bareAnnotate
    · split at h
      · rename_i hvalue
        rw [hkeyed, hannotate]
        exact .annotate (List.contains_iff_mem.mp hvalue)
      · cases h
  rw [if_neg hannotate] at h
  split at h
  · rename_i c file hkey
    have hentryKey : entryKey entry = "M" ++ String.ofList (c :: file) := by
      rw [← String.toList_inj, hkey]
      simp
    have hfile : String.ofList (c :: file) ≠ "" := by simp [← String.toList_inj]
    rcases entry_cases entry with ⟨hsign, hbare, -⟩ | ⟨hsign, hkeyed⟩
    · rw [← hbare, hentryKey] at hsign ⊢
      exact .bareImport hfile (by simpa using hsign)
    · rw [hentryKey] at hsign
      rw [hkeyed, hentryKey]
      exact .importPath hfile (by simpa using hsign) _
  · cases h

/-- Exactly the acceptable entries have a setting. -/
theorem exists_parse_iff {entry : String} :
    (∃ s, Setting.parse entry = .ok s) ↔ Acceptable entry :=
  ⟨fun ⟨_, h⟩ => acceptable_of_parse h, exists_parse_of_acceptable⟩

/-- An entry that is not acceptable is refused. -/
theorem parse_eq_error_iff {entry : String} {e : Error} :
    Setting.parse entry = .error e ↔ ¬ Acceptable entry ∧ e = refusal entry := by
  rw [← exists_parse_iff]
  constructor
  · intro h
    refine ⟨?_, eq_refusal_of_parse h⟩
    intro hsetting
    obtain ⟨s, hs⟩ := hsetting
    rw [h] at hs
    cases hs
  · intro hrefused
    obtain ⟨hnone, rfl⟩ := hrefused
    cases hparse : Setting.parse entry with
    | ok s => exact absurd ⟨s, hparse⟩ hnone
    | error e => rw [eq_refusal_of_parse hparse]

end SchemaSummary
