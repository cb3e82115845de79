import Mathlib.Tactic.MkIffOfInductiveProp
import SchemaSummary.Proofs.Text.Cuts
import SchemaSummary.Text.Blank

/-! # Blank characters

  Which characters are white space, and what trimming leaves of a text: what stands between the
  white space at its ends, and neither begins nor ends with any.
-/

namespace SchemaSummary.Text

/-! ## White space -/

/-- The characters with the Unicode property White_Space. -/
@[mk_iff]
inductive WhiteSpace (c : Char) : Prop
  /-- Tab, line feed, vertical tab, form feed and carriage return. -/
  | control (low : 0x09 ≤ c.toNat) (high : c.toNat ≤ 0x0D)
  | space (code : c.toNat = 0x20)
  | nextLine (code : c.toNat = 0x85)
  | noBreakSpace (code : c.toNat = 0xA0)
  | oghamSpaceMark (code : c.toNat = 0x1680)
  /-- The spaces from the en quad to the hair space. -/
  | typographic (low : 0x2000 ≤ c.toNat) (high : c.toNat ≤ 0x200A)
  | lineSeparator (code : c.toNat = 0x2028)
  | paragraphSeparator (code : c.toNat = 0x2029)
  | narrowNoBreakSpace (code : c.toNat = 0x202F)
  | mediumMathematicalSpace (code : c.toNat = 0x205F)
  | ideographicSpace (code : c.toNat = 0x3000)

/-- The runs of the table are the white space. -/
theorem isBlank_iff {c : Char} : isBlank c = true ↔ WhiteSpace c := by
  simp only [isBlank, blankRuns, List.any_cons, List.any_nil, Bool.or_eq_true, Bool.and_eq_true,
    decide_eq_true_eq, Bool.false_eq_true, or_false, whiteSpace_iff]
  omega

instance (c : Char) : Decidable (WhiteSpace c) := decidable_of_iff _ isBlank_iff

theorem isBlank_eq_false_iff {c : Char} : isBlank c = false ↔ ¬ WhiteSpace c := by
  rw [← isBlank_iff, Bool.not_eq_true]

/-! ## Trimming -/

/-- White space around a text is trimmed together with its own. -/
theorem trim_append {before after : List Char} (hbefore : ∀ c ∈ before, WhiteSpace c)
    (hafter : ∀ c ∈ after, WhiteSpace c) (cs : List Char) :
    trim (before ++ cs ++ after) = trim cs := by
  have hstart : ∀ c ∈ before, isBlank c = true := fun c hc => isBlank_iff.mpr (hbefore c hc)
  have hend : ∀ c ∈ after, isBlank c = true := fun c hc => isBlank_iff.mpr (hafter c hc)
  unfold trim
  rw [List.append_assoc, List.dropWhile_append_of_pos hstart, List.dropWhile_append]
  by_cases hblank : cs.dropWhile isBlank = []
  · -- The text is white space itself, so nothing is left either way.
    rw [hblank, List.isEmpty_nil, if_pos rfl, List.dropWhile_eq_nil_iff.mpr hend]
  · rw [if_neg (by simpa using hblank), dropEndWhile_append_of_pos hend]

/-- A text that neither begins nor ends with white space. -/
structure Unpadded (cs : List Char) : Prop where
  head : ∀ c, cs.head? = some c → ¬ WhiteSpace c
  last : ∀ c, cs.getLast? = some c → ¬ WhiteSpace c

/-- Nothing is trimmed where there is no white space. -/
theorem Unpadded.trim_eq {cs : List Char} (h : Unpadded cs) : trim cs = cs := by
  have hstart : cs.dropWhile isBlank = cs := by
    cases cs with
    | nil => rfl
    | cons c cs =>
      refine List.dropWhile_cons_of_neg ?_
      rw [isBlank_iff]
      exact h.head c rfl
  rw [trim, hstart, dropEndWhile_eq_rdropWhile, List.rdropWhile_eq_self_iff]
  intro hne
  rw [isBlank_iff]
  exact h.last _ (List.getLast?_eq_some_getLast hne)

theorem unpadded_trim (cs : List Char) : Unpadded (trim cs) := by
  have hlast : ∀ c, (trim cs).getLast? = some c → ¬ WhiteSpace c := by
    intro c hc
    have hne : (cs.dropWhile isBlank).rdropWhile isBlank ≠ [] := by
      intro hnil
      rw [trim, dropEndWhile_eq_rdropWhile, hnil] at hc
      cases hc
    have hlast := List.rdropWhile_last_not isBlank (cs.dropWhile isBlank) hne
    rw [trim, dropEndWhile_eq_rdropWhile, List.getLast?_eq_some_getLast hne] at hc
    rwa [Option.some.inj hc, isBlank_iff] at hlast
  refine ⟨?_, hlast⟩
  intro c hc
  -- What is left begins as it does before its end is trimmed.
  have hprefix : trim cs <+: cs.dropWhile isBlank := List.rdropWhile_prefix _ _
  obtain ⟨rest, hrest⟩ := hprefix
  have hhead := List.head?_dropWhile_not isBlank cs
  rw [← hrest, List.head?_append, hc] at hhead
  simpa [isBlank_eq_false_iff] using hhead

/-- What is trimmed is white space. -/
theorem exists_append_trim (cs : List Char) : ∃ before after,
    (∀ c ∈ before, WhiteSpace c) ∧ (∀ c ∈ after, WhiteSpace c) ∧
      cs = before ++ trim cs ++ after := by
  refine ⟨cs.takeWhile isBlank, (cs.dropWhile isBlank).rtakeWhile isBlank, ?_, ?_, ?_⟩
  · intro c hc
    exact isBlank_iff.mp (List.mem_takeWhile_imp hc)
  · intro c hc
    exact isBlank_iff.mp (List.mem_rtakeWhile_imp hc)
  · rw [trim, dropEndWhile_eq_rdropWhile, List.append_assoc, List.rdropWhile_append_rtakeWhile,
      List.takeWhile_append_dropWhile]

/-- **Trimming** leaves what stands between the white space at the ends of a text. -/
theorem trim_eq_iff {cs core : List Char} : trim cs = core ↔ Unpadded core ∧ ∃ before after,
    (∀ c ∈ before, WhiteSpace c) ∧ (∀ c ∈ after, WhiteSpace c) ∧ cs = before ++ core ++ after := by
  constructor
  · intro h
    subst h
    exact ⟨unpadded_trim cs, exists_append_trim cs⟩
  · intro h
    obtain ⟨hcore, before, after, hbefore, hafter, rfl⟩ := h
    rw [trim_append hbefore hafter, hcore.trim_eq]

theorem trim_eq_nil_iff {cs : List Char} : trim cs = [] ↔ ∀ c ∈ cs, WhiteSpace c := by
  rw [trim_eq_iff]
  constructor
  · intro h
    obtain ⟨-, before, after, hbefore, hafter, rfl⟩ := h
    intro c hc
    rw [List.append_nil, List.mem_append] at hc
    exact hc.elim (hbefore c) (hafter c)
  · intro h
    exact ⟨⟨nofun, nofun⟩, cs, [], h, nofun, by simp⟩

end SchemaSummary.Text
