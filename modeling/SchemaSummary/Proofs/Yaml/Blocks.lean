import SchemaSummary.Proofs.Yaml.Pieces
import SchemaSummary.Proofs.Yaml.Words

/-! # Steps of reading blocks

  What one step does with an entry of a record or an item of a list, and in front of which lines
  a record or a list ends.
-/

namespace SchemaSummary.Yaml

/-! ## Where blocks end -/

/-- Whether a list at `column` ends in front of lines, and so the value of an entry at it. -/
def EndsList (column : Nat) (ls : List Line) : Prop :=
  ∀ l ∈ ls.head?, l.Opens ∧ l.indent ≤ column ∧ (l.indent = column → l.isItem = false)

/-- Whether a record at `column` ends in front of lines. -/
def EndsRecord (column : Nat) (ls : List Line) : Prop :=
  ∀ l ∈ ls.head?, l.Opens ∧ l.indent < column

section Ends

variable {column : Nat} {ls : List Line}

theorem EndsList.ends (h : EndsList column ls) : Ends column ls := by
  intro l hl
  obtain ⟨hopens, hindent, -⟩ := h l hl
  exact ⟨hopens, hindent⟩

theorem EndsRecord.endsList (h : EndsRecord column ls) : EndsList column ls := by
  intro l hl
  obtain ⟨hopens, hindent⟩ := h l hl
  refine ⟨hopens, by omega, ?_⟩
  intro heq
  omega

/-- What ends a block ends every record that stands to the right of it. -/
theorem Ends.endsRecord (h : Ends column ls) :
    EndsRecord (column + Node.indentation) ls := by
  intro l hl
  obtain ⟨hopens, hindent⟩ := h l hl
  refine ⟨hopens, ?_⟩
  unfold Node.indentation
  omega

theorem endsRecord_nil (column : Nat) : EndsRecord column [] := by
  intro l hl
  cases hl

/-- No line is passed over in front of what opens something. -/
theorem Ends.dropBlank (h : Ends column ls) : dropBlank ls = ls := by
  cases ls with
  | nil => rfl
  | cons l ls =>
    have hopens := (h l rfl).1
    rw [Yaml.dropBlank, hopens.dropOrderMark, hopens.isBlank, if_neg Bool.false_ne_true]

end Ends

theorem dropBlank_cons_of_opens {l : Line} (h : l.Opens) (ls : List Line) :
    dropBlank (l :: ls) = l :: ls := by
  have hends : Ends l.indent (l :: ls) := by
    intro m hm
    obtain rfl : l = m := Option.some.inj hm
    exact ⟨h, Nat.le_refl _⟩
  exact hends.dropBlank

/-! ## Keys -/

namespace KeyWord

variable {key : List Char}

/-- A line with a key opens an entry. -/
theorem opens (h : KeyWord key) (indent : Nat) (cs : List Char) (stop : Option Char) :
    Line.Opens ⟨indent, key ++ cs, stop⟩ := by
  obtain ⟨c, key, rfl, hlower⟩ := h.exists_cons
  exact ⟨c, key ++ cs, rfl, .inr hlower⟩

/-- A line with a key is no item. -/
theorem isItem (h : KeyWord key) (indent : Nat) (cs : List Char) (stop : Option Char) :
    Line.isItem ⟨indent, key ++ cs, stop⟩ = false := by
  obtain ⟨c, key, rfl, hlower⟩ := h.exists_cons
  unfold Line.isItem
  split
  · rename_i heq
    rw [(List.cons.inj heq).1] at hlower
    cases hlower
  · rfl

end KeyWord

/-! ## Dashes -/

theorem opens_dashed (column : Nat) (ls : List Line) :
    ∃ l rest, Node.dashed column ls = l :: rest ∧ l.Opens ∧ l.indent = column := by
  cases ls with
  | nil => exact ⟨_, _, rfl, ⟨'-', [], rfl, .inl rfl⟩, rfl⟩
  | cons l ls => exact ⟨_, _, rfl, ⟨'-', _, rfl, .inl rfl⟩, rfl⟩

/-- Behind its dash, the first line of an item is what it was. -/
theorem dashed_cons (column : Nat) {l : Line} (hindent : l.indent = column + Node.indentation)
    (hhead : l.body.head? ≠ some ' ') (ls : List Line) :
    ∃ m, Node.dashed column (l :: ls) = m :: ls ∧ m.indent = column ∧ m.isItem = true ∧
      m.undashed = l ∧ m.body.length = l.body.length + 2 := by
  obtain ⟨indent, body, stop⟩ := l
  change indent = column + 2 at hindent
  subst hindent
  have hspace : body.takeWhile (· == ' ') = [] := takeWhile_space hhead
  refine ⟨⟨column, '-' :: ' ' :: body, stop⟩, ?_, rfl, rfl, ?_, rfl⟩
  · simp [Node.dashed]
  · simp [Line.undashed, hspace]

/-! ## Entries -/

section Entries

variable {fuel column : Nat} {l : Line} {rest rest' rest'' : List Line} {key : Key}
  {head : List Char} {value : Node} {entries : List (Key × Node)}

/-- An entry with its value behind the colon. -/
theorem readEntries_flat (hopens : l.Opens) (hindent : l.indent = column)
    (hkey : l.keyed? = some (key, head)) (hhead : atEnd head = false)
    (hvalue : readFlat column (dropGap head) l.stop rest = some (value, rest'))
    (hentries : readEntries fuel column rest' = some (entries, rest'')) :
    readEntries (fuel + 1) column (l :: rest) = some ((key, value) :: entries, rest'') := by
  rw [readEntries, dropBlank_cons_of_opens hopens]
  simp [hindent, hkey, hhead, hvalue, hentries]

/-- An entry with its value below it. -/
theorem readEntries_block (hopens : l.Opens) (hindent : l.indent = column)
    (hkey : l.keyed? = some (key, head)) (hhead : atEnd head = true)
    (hblock : hasBlock column true (dropBlank rest) = true)
    (hvalue : readBlock fuel column (dropBlank rest) = some (value, rest'))
    (hentries : readEntries fuel column rest' = some (entries, rest'')) :
    readEntries (fuel + 1) column (l :: rest) = some ((key, value) :: entries, rest'') := by
  rw [readEntries, dropBlank_cons_of_opens hopens]
  simp [hindent, hkey, hhead, hblock, hvalue, hentries]

/-- No entry is left where a record ends. -/
theorem readEntries_nil (h : EndsRecord column rest) :
    readEntries (fuel + 1) column rest = some ([], rest) := by
  rw [readEntries, h.endsList.ends.dropBlank]
  cases rest with
  | nil => rfl
  | cons l rest =>
    have hindent : l.indent ≠ column := Nat.ne_of_lt (h l rfl).2
    simp [hindent]

/-- A block that begins with a key is a record. -/
theorem readBlock_record {parent : Nat} (hitem : l.isItem = false)
    (hkey : l.keyed? = some (key, head)) (hindent : l.indent = column)
    (hentries : readEntries fuel column (l :: rest) = some (entries, rest')) :
    readBlock (fuel + 1) parent (l :: rest) = some (.record entries, rest') := by
  subst hindent
  simp [readBlock, hitem, hkey, hentries]

end Entries

/-! ## Items -/

section Items

variable {fuel column : Nat} {l : Line} {rest rest' rest'' : List Line} {item : Node}
  {items : List Node}

/-- An item behind its dash. -/
theorem readItems_cons (hopens : l.Opens) (hindent : l.indent = column) (hitem : l.isItem = true)
    (hblank : l.undashed.isBlank = false)
    (hblock : readBlock fuel column (l.undashed :: rest) = some (item, rest'))
    (hitems : readItems fuel column rest' = some (items, rest'')) :
    readItems (fuel + 1) column (l :: rest) = some (item :: items, rest'') := by
  rw [readItems, dropBlank_cons_of_opens hopens]
  simp [hindent, hitem, hblank, hblock, hitems]

/-- No item is left where a list ends. -/
theorem readItems_nil (h : EndsList column rest) :
    readItems (fuel + 1) column rest = some ([], rest) := by
  rw [readItems, h.ends.dropBlank]
  cases rest with
  | nil => rfl
  | cons l rest =>
    have hitem := (h l rfl).2.2
    have hother : ¬(l.indent = column ∧ l.isItem = true) := by
      intro hboth
      rw [hitem hboth.1] at hboth
      exact Bool.false_ne_true hboth.2
    simp [hother]

/-- A block that begins with a dash is a list. -/
theorem readBlock_list {parent : Nat} (hitem : l.isItem = true) (hindent : l.indent = column)
    (hitems : readItems fuel column (l :: rest) = some (items, rest')) :
    readBlock (fuel + 1) parent (l :: rest) = some (.list items, rest') := by
  subst hindent
  simp [readBlock, hitem, hitems]

end Items

end SchemaSummary.Yaml
