import SchemaSummary.Yaml.Reader

/-! # Written lines

  The lines that are written hold printable characters only, each ends with a break, and none of
  them has a break or a leading space in its contents. Such lines are told apart again in the
  text that they make up.
-/

namespace SchemaSummary.Yaml

/-! ## Printable characters -/

theorem ne_of_isPrintable {c d : Char} (hc : isPrintable c = true) (hd : isPrintable d = false) :
    c ≠ d := by
  intro heq
  rw [← heq, hc] at hd
  cases hd

/-- The only gap among printable characters is the space. -/
theorem isGap_of_isPrintable {c : Char} (h : isPrintable c = true) : isGap c = (c == ' ') := by
  have htab : (c == '\t') = false := beq_false_of_ne (ne_of_isPrintable h (by decide))
  rw [isGap, htab, Bool.or_false]

theorem isReadable_of_isPrintable {c : Char} (h : isPrintable c = true) :
    isReadable c = true := by
  simp [isReadable, h]

/-! ## Gaps around printable texts -/

theorem dropGap_of_head {cs : List Char} (hprintable : cs.all isPrintable = true)
    (hhead : cs.head? ≠ some ' ') : dropGap cs = cs := by
  cases cs with
  | nil => rfl
  | cons c cs =>
    rw [List.all_cons, Bool.and_eq_true] at hprintable
    have hne : c ≠ ' ' := fun h => hhead (by rw [h]; rfl)
    have hgap : isGap c = false := by
      rw [isGap_of_isPrintable hprintable.1]
      exact beq_false_of_ne hne
    simp [dropGap, hgap]

theorem dropGapEnd_of_getLast {cs : List Char} (hprintable : cs.all isPrintable = true)
    (hlast : cs.getLast? ≠ some ' ') : dropGapEnd cs = cs := by
  rw [dropGapEnd, dropGap_of_head, List.reverse_reverse]
  · rw [List.all_reverse]
    exact hprintable
  · rwa [List.head?_reverse]

/-! ## Lines in texts -/

/-- A line as it is written. -/
structure Line.Written (l : Line) : Prop where
  stop : ∃ b, l.stop = some b ∧ isBreak b = true ∧ isPrintable b = true
  printable : l.body.all isPrintable = true
  unbroken : l.body.any isBreak = false
  head : l.body.head? ≠ some ' '

theorem Line.Written.isPrintable_text {l : Line} (h : l.Written) :
    l.text.all isPrintable = true := by
  obtain ⟨b, hstop, -, hb⟩ := h.stop
  have hspace : isPrintable ' ' = true := by decide
  simp [Line.text, hstop, hb, hspace, h.printable]

theorem isPrintable_unlines {ls : List Line} (h : ∀ l ∈ ls, l.Written) :
    (unlines ls).all isPrintable = true := by
  rw [unlines, List.all_flatMap, List.all_eq_true]
  exact fun l hl => (h l hl).isPrintable_text

/-- Written lines are read as they were. -/
theorem lines_unlines {ls : List Line} (h : ∀ l ∈ ls, l.Written) : lines (unlines ls) = ls := by
  induction ls with
  | nil => rfl
  | cons l ls ih =>
    have hl := h l List.mem_cons_self
    obtain ⟨b, hstop, hb, -⟩ := hl.stop
    have hrest := ih fun l hl => h l (List.mem_cons_of_mem _ hl)
    rw [unlines_cons, lines_text_append hstop hb hl.unbroken hl.head, hrest]

/-- No break in a printable text is another one in disguise. -/
theorem unifyBreaks_of_isPrintable {cs : List Char} (h : cs.all isPrintable = true) :
    unifyBreaks cs = cs := by
  induction cs with
  | nil => rfl
  | cons c cs ih =>
    rw [List.all_cons, Bool.and_eq_true] at h
    have hreturn : c ≠ '\r' := ne_of_isPrintable h.1 (by decide)
    have hnext : c ≠ '\u0085' := ne_of_isPrintable h.1 (by decide)
    rw [unifyBreaks.eq_def]
    -- Neither CR nor the next-line control is printable, so no character is replaced.
    split
    · rename_i heq
      cases heq
    · rename_i heq
      exact absurd (List.cons.inj heq).1 hreturn
    · rename_i heq
      obtain ⟨rfl, rfl⟩ := List.cons.inj heq
      simp [hreturn, hnext, ih h.2]

end SchemaSummary.Yaml
