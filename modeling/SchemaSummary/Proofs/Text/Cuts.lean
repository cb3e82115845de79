import Mathlib.Data.List.DropRight
import SchemaSummary.Text.Split

/-! # Cuts of texts

  What the ends of a text are without, and when two texts are cut to the same one. What is dropped
  from the end of a list or taken from there is what `List.rdropWhile` drops and `List.rtakeWhile`
  takes.
-/

namespace SchemaSummary.Text

/-! ## Endings -/

section Endings

variable {α : Type} {p : α → Bool}

theorem dropEndWhile_eq_rdropWhile (p : α → Bool) (xs : List α) :
    dropEndWhile p xs = xs.rdropWhile p := rfl

/-- An ending with the property is dropped, whatever stands before it. -/
theorem dropEndWhile_append_of_pos {ending : List α} (h : ∀ x ∈ ending, p x = true)
    (xs : List α) : dropEndWhile p (xs ++ ending) = dropEndWhile p xs := by
  rw [dropEndWhile, List.reverse_append, List.dropWhile_append_of_pos]
  · rfl
  · exact fun x hx => h x (List.mem_reverse.mp hx)

/-- What stands before an element without the property is not dropped. -/
theorem dropEndWhile_append_cons (p : α → Bool) {x : α} (h : p x = false) (xs ys : List α) :
    dropEndWhile p (xs ++ x :: ys) = xs ++ x :: dropEndWhile p ys := by
  unfold dropEndWhile
  rw [List.reverse_append, List.reverse_cons, List.append_assoc, List.dropWhile_append]
  cases hys : ys.reverse.dropWhile p with
  | nil => simp [h]
  | cons y zs => simp

end Endings

theorem mem_of_mem_trimEndOf {c d : Char} {cs : List Char} (h : d ∈ trimEndOf c cs) : d ∈ cs :=
  (List.rdropWhile_prefix (· == c) cs).subset h

theorem trimEndOf_append_cons {c d : Char} (h : d ≠ c) (cs ds : List Char) :
    trimEndOf c (cs ++ d :: ds) = cs ++ d :: trimEndOf c ds :=
  dropEndWhile_append_cons (· == c) (beq_false_of_ne h) cs ds

theorem trimEndOf_append_replicate (c : Char) (cs : List Char) (n : Nat) :
    trimEndOf c (cs ++ List.replicate n c) = trimEndOf c cs := by
  apply dropEndWhile_append_of_pos
  intro d hd
  rw [List.eq_of_mem_replicate hd, beq_self_eq_true]

/-- Trimming takes off a run of one character. -/
theorem exists_trimEndOf_append (c : Char) (cs : List Char) :
    ∃ n, cs = trimEndOf c cs ++ List.replicate n c := by
  have hrun : ∀ d ∈ cs.rtakeWhile (· == c), d = c := by
    intro d hd
    simpa using List.mem_rtakeWhile_imp hd
  refine ⟨(cs.rtakeWhile (· == c)).length, ?_⟩
  rw [← List.eq_replicate_of_mem hrun, trimEndOf, dropEndWhile_eq_rdropWhile,
    List.rdropWhile_append_rtakeWhile]

/-! ## Parts -/

/-- What stands behind the last separator has none, and is the whole text or follows one. -/
theorem lastPart_eq_iff {sep : Char} {cs base : List Char} :
    lastPart sep cs = base ↔
      sep ∉ base ∧ ∃ dir, cs = dir ++ base ∧ (dir = [] ∨ dir.getLast? = some sep) := by
  have hlibrary : lastPart sep cs = cs.rtakeWhile (· != sep) := rfl
  rw [hlibrary]
  constructor
  · intro h
    subst h
    refine ⟨?_, cs.rdropWhile (· != sep), List.rdropWhile_append_rtakeWhile.symm, ?_⟩
    · intro hsep
      simpa using List.mem_rtakeWhile_imp hsep
    · by_cases hdir : cs.rdropWhile (· != sep) = []
      · exact .inl hdir
      · have hlast := List.rdropWhile_last_not (· != sep) cs hdir
        right
        rw [List.getLast?_eq_some_getLast hdir]
        simpa using hlast
  · intro h
    obtain ⟨hbase, dir, rfl, hdir⟩ := h
    have hall : ∀ d ∈ base.reverse, (d != sep) = true := by
      intro d hd
      rw [bne_iff_ne]
      exact fun heq => hbase (heq ▸ List.mem_reverse.mp hd)
    rw [List.rtakeWhile, List.reverse_append, List.takeWhile_append_of_pos hall]
    rcases hdir with rfl | hdir
    · simp
    · obtain ⟨front, rfl⟩ := List.getLast?_eq_some_iff.mp hdir
      simp

/-- What is in front of the first separator has none, and is the whole text or one follows. -/
theorem cut_fst_eq_iff {sep : Char} {cs start : List Char} :
    (cut sep cs).1 = start ↔
      sep ∉ start ∧ ∃ rest, cs = start ++ rest ∧ (rest = [] ∨ rest.head? = some sep) := by
  constructor
  · intro h
    subst h
    refine ⟨?_, cs.dropWhile (· != sep), (List.takeWhile_append_dropWhile).symm, ?_⟩
    · intro hsep
      simpa using List.all_eq_true.mp List.all_takeWhile sep hsep
    · have hhead := List.head?_dropWhile_not (· != sep) cs
      cases hrest : cs.dropWhile (· != sep) with
      | nil => exact .inl rfl
      | cons d rest =>
        rw [hrest] at hhead
        right
        simpa using hhead
  · intro h
    obtain ⟨hstart, rest, rfl, rfl | hrest⟩ := h
    · rw [List.append_nil, cut_of_notMem hstart]
    · obtain ⟨tail, rfl⟩ := List.head?_eq_some_iff.mp hrest
      rw [cut_append_cons hstart]

end SchemaSummary.Text
