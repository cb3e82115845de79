import SchemaSummary.Proofs.Yaml.Blocks
import SchemaSummary.Proofs.Yaml.Scalar

/-! # The layout of nodes

  The trees that are written out, and what their lines are like: all of them can be told apart
  again in a text, and a record begins with a key at its column.
-/

namespace SchemaSummary.Yaml

namespace Node

/-! ## Trees that are written -/

/-- Whether a node is a record. -/
def isRecord : Node → Bool
  | .record _ => true
  | .scalar _ | .list _ => false

mutual

/-- Whether a node can be the value of an entry. -/
def Writable : Node → Prop
  | .scalar s => s.Writable
  | .list items => ItemsWritable items
  | .record entries => entries ≠ [] ∧ EntriesWritable entries

/-- Whether nodes can be the items of a list, all of them records. -/
def ItemsWritable : List Node → Prop
  | [] => True
  | item :: items => item.isRecord = true ∧ Writable item ∧ ItemsWritable items

/-- Whether keys and nodes can be the entries of a record. -/
def EntriesWritable : List (Key × Node) → Prop
  | [] => True
  | (key, value) :: entries =>
    (∃ word, key = .text word ∧ KeyWord word.toList) ∧ Writable value ∧ EntriesWritable entries

end

theorem itemsWritable_of_forall {items : List Node}
    (h : ∀ item ∈ items, item.isRecord = true ∧ item.Writable) : ItemsWritable items := by
  induction items with
  | nil => trivial
  | cons item items ih =>
    obtain ⟨hrecord, hitem⟩ := h item List.mem_cons_self
    exact ⟨hrecord, hitem, ih fun i hi => h i (List.mem_cons_of_mem item hi)⟩

/-! ## First lines -/

/-- An entry begins with its key and a colon. -/
theorem valueLines_eq_cons (column : Nat) (key : List Char) (value : Node) :
    ∃ cs stop ls, valueLines column (key ++ [':']) value = ⟨column, key ++ ':' :: cs, stop⟩ :: ls ∧
      endsToken cs = true := by
  cases value with
  | scalar s =>
    cases hpieces : s.pieces with
    | nil =>
      refine ⟨[' '], some '\n', [], ?_, rfl⟩
      simp [valueLines, hpieces, scalarLines, Line.ofBody]
    | cons p ps =>
      refine ⟨' ' :: p.1, some (p.2.getD '\n'), ps.map (Line.ofLaterPiece (column + indentation)),
        ?_, rfl⟩
      simp [valueLines, hpieces, scalarLines]
  | list items =>
    cases items with
    | nil =>
      refine ⟨[' ', '[', ']'], some '\n', [], ?_, rfl⟩
      simp [valueLines, Line.ofBody]
    | cons item items => exact ⟨[], _, _, rfl, rfl⟩
  | record entries => exact ⟨[], _, _, rfl, rfl⟩

/-- A record begins with a key at its column. -/
theorem entryLines_eq_cons {entries : List (Key × Node)} (hne : entries ≠ [])
    (h : EntriesWritable entries) (column : Nat) :
    ∃ word cs stop ls, entryLines column entries = ⟨column, word ++ ':' :: cs, stop⟩ :: ls ∧
      KeyWord word ∧ endsToken cs = true := by
  match entries, hne, h with
  | (key, value) :: entries, _, h =>
    obtain ⟨⟨word, rfl, hword⟩, -, -⟩ := h
    obtain ⟨cs, stop, ls, hlines, hend⟩ := valueLines_eq_cons column word.toList value
    refine ⟨word.toList, cs, stop, ls ++ entryLines column entries, ?_, hword, hend⟩
    rw [entryLines]
    show valueLines column (word.toList ++ [':']) value ++ _ = _
    rw [hlines]
    rfl

/-- A record as an item begins with a dash at the column of the list. Behind the dash stands the
    first line of that record. -/
theorem itemLines_eq_cons {entries : List (Key × Node)} (hne : entries ≠ [])
    (h : EntriesWritable entries) (column : Nat) (items : List Node) :
    ∃ l ls m, entryLines (column + indentation) entries = l :: ls ∧
      itemLines column (.record entries :: items) = m :: (ls ++ itemLines column items) ∧
      m.Opens ∧ m.indent = column ∧ m.isItem = true ∧ m.undashed = l ∧
      m.body.length = l.body.length + 2 := by
  obtain ⟨word, cs, stop, ls, hlines, hword, -⟩ :=
    entryLines_eq_cons hne h (column + indentation)
  have hhead : (word ++ ':' :: cs).head? ≠ some ' ' :=
    (hword.opens (column + indentation) (':' :: cs) stop).head_ne (by decide) (by decide)
  obtain ⟨m, hdashed, hindent, hitem, hundashed, hlength⟩ :=
    dashed_cons column (l := ⟨column + indentation, word ++ ':' :: cs, stop⟩) rfl hhead ls
  refine ⟨_, ls, m, hlines, ?_, ?_, hindent, hitem, hundashed, hlength⟩
  · rw [itemLines, blockLines, hlines, hdashed]
    rfl
  · obtain ⟨l, rest, heq, hopens, -⟩ := opens_dashed column (_ :: ls)
    rw [hdashed] at heq
    rw [(List.cons.inj heq).1]
    exact hopens

/-- The value of an entry ends in front of further entries. -/
theorem endsList_entryLines {entries : List (Key × Node)} (h : EntriesWritable entries)
    {column : Nat} {rest : List Line} (hrest : EndsRecord column rest) :
    EndsList column (entryLines column entries ++ rest) := by
  by_cases hne : entries = []
  · subst hne
    exact hrest.endsList
  · obtain ⟨word, cs, stop, ls, hlines, hword, -⟩ := entryLines_eq_cons hne h column
    rw [hlines]
    intro l hl
    obtain rfl : (⟨column, word ++ ':' :: cs, stop⟩ : Line) = l := Option.some.inj hl
    exact ⟨hword.opens _ _ _, Nat.le_refl _, fun _ => hword.isItem _ _ _⟩

/-- An item ends in front of further items. -/
theorem ends_itemLines (items : List Node) {column : Nat} {rest : List Line}
    (hrest : EndsList column rest) : Ends column (itemLines column items ++ rest) := by
  cases items with
  | nil => exact hrest.ends
  | cons item items =>
    obtain ⟨l, ls, hlines, hopens, hindent⟩ :=
      opens_dashed column (blockLines (column + indentation) item)
    rw [itemLines, hlines]
    intro m hm
    obtain rfl : l = m := Option.some.inj hm
    exact ⟨hopens, Nat.le_of_eq hindent⟩

/-! ## Written lines -/

/-- A line with a key is written if what stands behind the colon can be. -/
theorem written_key {key : List Char} {b : Char} (h : KeyWord key) (cs : List Char)
    (hprintable : cs.all isPrintable = true) (hunbroken : cs.any isBreak = false)
    (hb : isBreak b = true ∧ isPrintable b = true) (indent : Nat) :
    Line.Written ⟨indent, key ++ ':' :: cs, some b⟩ where
  stop := ⟨b, rfl, hb⟩
  printable := by
    have hcolon : isPrintable ':' = true := by decide
    simp [h.word.token.isPrintable, hcolon, hprintable]
  unbroken := by
    have hcolon : isBreak ':' = false := by decide
    simp only [List.any_append, List.any_cons, h.word.token.isBreak, hcolon, hunbroken,
      Bool.or_self]
  head := by
    obtain ⟨c, key, rfl, hlower⟩ := h.exists_cons
    intro hhead
    have hc : c = ' ' := Option.some.inj hhead
    rw [hc] at hlower
    cases hlower

theorem written_dashed {ls : List Line} (h : ∀ l ∈ ls, l.Written) (column : Nat) :
    ∀ l ∈ dashed column ls, l.Written := by
  have hdash : isPrintable '-' = true ∧ isBreak '-' = false ∧ isPrintable ' ' = true ∧
      isBreak ' ' = false := by
    decide
  cases ls with
  | nil =>
    intro l hl
    rw [List.mem_singleton.mp hl]
    refine ⟨⟨'\n', rfl, by decide⟩, hdash.1, ?_, ?_⟩
    · simp [Line.ofBody, hdash.2.1]
    · simp [Line.ofBody]
  | cons m ls =>
    intro l hl
    rcases List.mem_cons.mp hl with rfl | hl
    · have hm := h m List.mem_cons_self
      refine ⟨hm.stop, ?_, ?_, ?_⟩
      · simp [hdash.1, hdash.2.2.1, hm.printable]
      · simp [hdash.2.1, hdash.2.2.2, hm.unbroken]
      · intro hhead
        cases hhead
    · exact h l (List.mem_cons_of_mem m hl)

mutual

theorem written_valueLines : ∀ (value : Node), value.Writable → ∀ {key : List Char}, KeyWord key →
    ∀ column, ∀ l ∈ valueLines column (key ++ [':']) value, l.Written
  | .scalar s, h, key, hkey, column => by
    intro l hl
    have hwritten := Scalar.written_pieces h
    rw [valueLines] at hl
    cases hpieces : s.pieces with
    | nil =>
      rw [hpieces, scalarLines, List.mem_singleton] at hl
      have hline := written_key hkey [' '] (by decide) (by decide)
        (by decide : isBreak '\n' = true ∧ isPrintable '\n' = true) column
      rw [hl]
      simpa [Line.ofBody] using hline
    | cons p ps =>
      rw [hpieces] at hl hwritten
      rcases List.mem_cons.mp hl with rfl | hl
      · have hp := hwritten p List.mem_cons_self
        have hspace : isPrintable ' ' = true ∧ isBreak ' ' = false := by decide
        have hline := written_key hkey (' ' :: p.1) (by simp [hspace.1, hp.printable])
          (by simp only [List.any_cons, hspace.2, hp.unbroken, Bool.or_self]) hp.stop column
        simpa using hline
      · obtain ⟨q, hq, rfl⟩ := List.mem_map.mp hl
        exact Line.written_ofLaterPiece _ (hwritten q (List.mem_cons_of_mem p hq))
  | .list [], _, key, hkey, column => by
    intro l hl
    have hline := written_key hkey [' ', '[', ']'] (by decide) (by decide)
      (by decide : isBreak '\n' = true ∧ isPrintable '\n' = true) column
    rw [valueLines, List.mem_singleton] at hl
    rw [hl]
    simpa [Line.ofBody] using hline
  | .list (item :: items), h, key, hkey, column => by
    intro l hl
    rcases List.mem_cons.mp hl with rfl | hl
    · exact written_key hkey [] rfl rfl (by decide) column
    · exact written_itemLines (item :: items) h column l hl
  | .record entries, h, key, hkey, column => by
    intro l hl
    rcases List.mem_cons.mp hl with rfl | hl
    · exact written_key hkey [] rfl rfl (by decide) column
    · exact written_entryLines entries h.2 _ l hl

theorem written_itemLines : ∀ (items : List Node), ItemsWritable items →
    ∀ column, ∀ l ∈ itemLines column items, l.Written
  | [], _, _ => by
    intro l hl
    cases hl
  | .record entries :: items, h, column => by
    intro l hl
    rcases List.mem_append.mp hl with hl | hl
    · exact written_dashed (written_entryLines entries h.2.1.2 _) column l hl
    · exact written_itemLines items h.2.2 column l hl
  | .scalar _ :: _, h, _ => absurd h.1 Bool.false_ne_true
  | .list _ :: _, h, _ => absurd h.1 Bool.false_ne_true

theorem written_entryLines : ∀ (entries : List (Key × Node)), EntriesWritable entries →
    ∀ column, ∀ l ∈ entryLines column entries, l.Written
  | [], _, _ => by
    intro l hl
    cases hl
  | (key, value) :: entries, h, column => by
    obtain ⟨⟨word, rfl, hword⟩, hvalue, hentries⟩ := h
    intro l hl
    rcases List.mem_append.mp hl with hl | hl
    · exact written_valueLines value hvalue hword column l hl
    · exact written_entryLines entries hentries column l hl

end

end Node

end SchemaSummary.Yaml
