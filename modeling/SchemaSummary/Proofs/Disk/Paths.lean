import SchemaSummary.Disk.Path

/-! # Paths below a directory

  What the parts of a path say about where it leads. The steps of a joined path are those of the
  directory and then those of the path below it, and a path escapes exactly if it begins with a
  slash or has a part that leads upwards.
-/

namespace SchemaSummary.Path

/-! ## Joined paths -/

/-- A slash cuts the steps of a path. -/
theorem steps_append_slash (dir path : List Char) :
    steps (dir ++ '/' :: path) = steps dir ++ steps path := by
  unfold steps
  rw [List.splitOn_append_cons_self, List.filter_append]

/-- A joined path goes through the directory. -/
theorem steps_join (dir : List Char) {path : List Char} (h : isAbsolute path = false) :
    steps (join dir path) = steps dir ++ steps path := by
  unfold join
  rw [if_neg (by simp [h])]
  by_cases hempty : dir = []
  · rw [hempty]
    rfl
  by_cases hslash : dir.getLast? = some '/'
  · -- The slash at the end of the directory is the one that the path is joined with.
    obtain ⟨front, rfl⟩ := List.getLast?_eq_some_iff.mp hslash
    have hfront : steps (front ++ ['/']) = steps front := by
      rw [steps_append_slash]
      exact List.append_nil _
    rw [if_pos (by simp), hfront, List.append_assoc]
    exact steps_append_slash front path
  · rw [if_neg (by simp [hempty, hslash])]
    exact steps_append_slash dir path

/-- A joined path starts where the directory does. -/
theorem isAbsolute_join (dir : List Char) {path : List Char} (h : isAbsolute path = false) :
    isAbsolute (join dir path) = isAbsolute dir := by
  unfold join
  rw [if_neg (by simp [h])]
  cases dir with
  | nil => exact h
  | cons c dir => split <;> rfl

/-! ## Escaping paths -/

/-- Of the components below the start of a path those that lead upwards do not stay inside. -/
theorem any_ofStep (parts : List (List Char)) :
    (parts.map Component.ofStep).any (fun c => !c.staysInside) = true ↔ upward ∈ parts := by
  rw [List.any_map, List.any_eq_true]
  constructor
  · intro h
    obtain ⟨part, hpart, hout⟩ := h
    by_cases hup : part = upward
    · exact hup ▸ hpart
    · simp [Component.ofStep, hup, Component.staysInside] at hout
  · intro h
    exact ⟨upward, h, rfl⟩

theorem upward_mem_steps_iff {path : List Char} :
    upward ∈ steps path ↔ upward ∈ path.splitOn '/' := by
  unfold steps
  rw [List.mem_filter]
  exact and_iff_left rfl

/-- A path escapes exactly if it begins with a slash or has a part that leads upwards. -/
theorem escapes_iff {path : List Char} :
    escapes path = true ↔ path.head? = some '/' ∨ upward ∈ path.splitOn '/' := by
  rw [← upward_mem_steps_iff, ← any_ofStep]
  unfold escapes components
  by_cases habsolute : path.head? = some '/'
  · have hroot : isAbsolute path = true := by simp [isAbsolute, habsolute]
    simp [hroot, habsolute, Component.staysInside]
  · have hroot : isAbsolute path = false := by simp [isAbsolute, habsolute]
    rw [if_neg (by simp [hroot])]
    -- The dot that may stand at the front leads nowhere.
    split <;> simp [habsolute, Component.staysInside]

theorem not_escapes_iff {path : List Char} :
    escapes path = false ↔ path.head? ≠ some '/' ∧ upward ∉ path.splitOn '/' := by
  rw [← Bool.not_eq_true, escapes_iff, not_or]

theorem isAbsolute_of_not_escapes {path : List Char} (h : escapes path = false) :
    isAbsolute path = false := by
  simp [isAbsolute, (not_escapes_iff.mp h).1]

/-! ## Paths that lead somewhere -/

/-- A path with a character other than slashes and dots leads somewhere. -/
theorem steps_ne_nil {path : List Char} {c : Char} (h : c ∈ path) (hslash : c ≠ '/')
    (hdot : c ≠ '.') : steps path ≠ [] := by
  have hmem : c ∈ (path.splitOn '/').flatten := by
    rw [Text.flatten_splitOn]
    exact List.mem_filter.mpr ⟨h, bne_iff_ne.mpr hslash⟩
  obtain ⟨part, hpart, hc⟩ := List.mem_flatten.mp hmem
  have hempty : part ≠ [] := List.ne_nil_of_mem hc
  have hidle : part ≠ ['.'] := by
    intro heq
    rw [heq] at hc
    exact hdot (List.mem_singleton.mp hc)
  have hstep : isStep part = true := by simp [isStep, hempty, hidle]
  exact List.ne_nil_of_mem (List.mem_filter.mpr ⟨hpart, hstep⟩)

end SchemaSummary.Path
