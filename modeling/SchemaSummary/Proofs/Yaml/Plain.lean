import SchemaSummary.Proofs.Yaml.Pieces

/-! # Reading plain scalars

  A text that can be written plain is read as it was.
-/

namespace SchemaSummary.Yaml

/-- What a text that can be written plain is like. -/
structure PlainText (v : List Char) : Prop where
  printable : v.all isPrintable = true
  unbroken : v.any isBreak = false
  head : v.head? ≠ some ' '
  last : v.getLast? ≠ some ' '
  starts : startsOtherwise v = false
  ends : endsPlain v = false

theorem plainText_of_carries {v : List Char} (h : plainCarries v = true) : PlainText v := by
  simp only [plainCarries, hasStructure, Bool.and_eq_true, Bool.not_eq_true',
    Bool.or_eq_false_iff] at h
  obtain ⟨⟨⟨⟨⟨hhead, hlast⟩, hunbroken⟩, hstarts, hends⟩, -⟩, hprintable⟩ := h
  refine ⟨hprintable, hunbroken, ?_, ?_, hstarts, hends⟩
  · intro heq
    rw [heq] at hhead
    cases hhead
  · intro heq
    rw [heq] at hlast
    cases hlast

namespace PlainText

variable {v : List Char}

/-- Characters that begin something else do not begin a plain text. -/
theorem head_ne (h : PlainText v) {c : Char} (hc : indicators.contains c = true) :
    v.head? ≠ some c := by
  intro hhead
  cases v with
  | nil => cases hhead
  | cons d v =>
    obtain rfl := Option.some.inj hhead
    have hstarts := h.starts
    rw [startsOtherwise, hc] at hstarts
    simp at hstarts

/-- A plain scalar ends with its line where the next one is not indented deeper. -/
theorem readPlain (h : PlainText v) {parent : Nat} {rest : List Line} (hrest : Ends parent rest) :
    Yaml.readPlain parent v (some '\n') rest = some ([(v, some (.broken '\n'))], rest) := by
  have hgap := dropGapEnd_of_getLast h.printable h.last
  cases rest with
  | nil => simp [Yaml.readPlain, hgap, h.ends]
  | cons l rest =>
    obtain ⟨hopens, hindent⟩ := hrest l rfl
    have htab : l.hasTabIndent parent = false := by
      have hhead := hopens.head_ne (c := '\t') (by decide) (by decide)
      rw [Line.hasTabIndent, beq_false_of_ne hhead, Bool.and_false]
    have hcontinues : l.continuesPlain parent = false := by
      rw [Line.continuesPlain, hopens.isBlank, Bool.false_or, decide_eq_false_iff_not]
      omega
    simp [Yaml.readPlain, hgap, h.ends, htab, hcontinues]

/-- A plain scalar is read as it was. -/
theorem readScalar (h : PlainText v) (hne : v ≠ []) {parent : Nat} {rest : List Line}
    (hrest : Ends parent rest) :
    Yaml.readScalar parent v (some '\n') rest = some (⟨String.ofList v, false⟩, rest) := by
  obtain ⟨c, cs, rfl⟩ := List.exists_cons_of_ne_nil hne
  have hbar : c ≠ '|' := by
    intro heq
    exact h.head_ne (c := '|') (by decide) (by rw [heq]; rfl)
  have hquote : Quote.ofMark? c = none := by
    rw [Quote.ofMark?.eq_def]
    split
    · exact absurd rfl (h.head_ne (c := '\x27') (by decide))
    · exact absurd rfl (h.head_ne (c := '"') (by decide))
    · rfl
  rw [Yaml.readScalar.eq_def]
  split
  · rename_i heq
    exact absurd (List.cons.inj heq).1 hbar
  · rw [List.head?_cons, Option.bind_some, hquote]
    simp [h.starts, h.readPlain hrest, joinParts, Joint.foldRun]

end PlainText

end SchemaSummary.Yaml
