/-! # Cutting a text

  The small cuts that names, parameters and paths are taken apart with, as far as lists do not
  have them already: `List.splitOn` cuts at every separator, and `List.isPrefixOf?` and
  `List.isSuffixOf?` remove a given beginning or ending, if it is there.

  - `cut` cuts at the first separator only, and `lastPart` is what follows the last one;
  - `dropEndWhile` removes what has a property from the end, `trimEndOf` all copies of one
    character.
-/

namespace SchemaSummary.Text

/-! ## Parts between separators -/

/-- The parts hold all characters but the separators. -/
theorem flatten_splitOn (sep : Char) (cs : List Char) :
    (cs.splitOn sep).flatten = cs.filter (· != sep) := by
  induction cs with
  | nil => rfl
  | cons c cs ih =>
    obtain ⟨part, parts, hparts⟩ := List.exists_cons_of_ne_nil (List.splitOn_ne_nil sep cs)
    rw [hparts] at ih
    rw [List.splitOn_cons_eq_if_modifyHead, hparts]
    by_cases h : c = sep
    · simpa [h] using ih
    · simpa [h] using ih

/-- No part has a separator. -/
theorem notMem_of_mem_splitOn {sep : Char} {cs part : List Char} (h : part ∈ cs.splitOn sep) :
    sep ∉ part := by
  intro hsep
  have hflat : sep ∈ (cs.splitOn sep).flatten := List.mem_flatten.mpr ⟨part, h, hsep⟩
  rw [flatten_splitOn] at hflat
  simpa using (List.mem_filter.mp hflat).2

/-! ## The first separator and the last -/

/-- What stands before the first separator, and what follows it if there is one. -/
def cut (sep : Char) (cs : List Char) : List Char × Option (List Char) :=
  (cs.takeWhile (· != sep), (cs.dropWhile (· != sep)).tail?)

/-- A text without separators is not cut. -/
theorem cut_of_notMem {sep : Char} {part : List Char} (h : sep ∉ part) :
    cut sep part = (part, none) := by
  have hall : ∀ c ∈ part, (c != sep) = true := fun c hc => bne_iff_ne.mpr fun heq => h (heq ▸ hc)
  rw [← List.append_nil part, cut, List.takeWhile_append_of_pos hall,
    List.dropWhile_append_of_pos hall]
  rfl

/-- A text is cut at its first separator. -/
theorem cut_append_cons {sep : Char} {part : List Char} (h : sep ∉ part) (cs : List Char) :
    cut sep (part ++ sep :: cs) = (part, some cs) := by
  have hall : ∀ c ∈ part, (c != sep) = true := fun c hc => bne_iff_ne.mpr fun heq => h (heq ▸ hc)
  rw [cut, List.takeWhile_append_of_pos hall, List.dropWhile_append_of_pos hall]
  simp

/-- The part after the last separator, or the whole text if there is none. -/
def lastPart (sep : Char) (cs : List Char) : List Char :=
  (cs.reverse.takeWhile (· != sep)).reverse

/-! ## Endings -/

/-- The list without the elements at its end that have a property. -/
def dropEndWhile {α : Type} (p : α → Bool) (xs : List α) : List α :=
  (xs.reverse.dropWhile p).reverse

/-- The text without any copies of `c` at its end. -/
def trimEndOf (c : Char) (cs : List Char) : List Char := dropEndWhile (· == c) cs

end SchemaSummary.Text
