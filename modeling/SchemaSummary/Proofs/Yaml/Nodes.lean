import SchemaSummary.Proofs.Yaml.Layout

/-! # Reading nodes that were written

  The lines of a record are read as the record, with the lines behind it left over, and so the
  text of a record as well. The steps that it takes are bounded by the weight of the lines: every
  entry takes one of them and every item two, and each has a line of its own.
-/

namespace SchemaSummary.Yaml

/-! ## Weight -/

theorem weight_cons (l : Line) (ls : List Line) :
    weight (l :: ls) = l.body.length + 1 + weight ls := rfl

theorem weight_append (ls ms : List Line) : weight (ls ++ ms) = weight ls + weight ms := by
  induction ls with
  | nil =>
    rw [List.nil_append]
    exact (Nat.zero_add _).symm
  | cons l ls ih =>
    rw [List.cons_append, weight_cons, weight_cons, ih]
    omega

namespace Node

/-! ## Entries and items -/

/-- An entry takes one step. -/
theorem weight_valueLines_pos (column : Nat) (key : List Char) (value : Node) :
    0 < weight (valueLines column (key ++ [':']) value) := by
  obtain ⟨cs, stop, ls, hlines, -⟩ := valueLines_eq_cons column key value
  rw [hlines, weight_cons]
  omega

/-- A block is read as a record where its lines are read as entries. -/
theorem readBlock_entryLines {entries : List (Key × Node)} (hne : entries ≠ [])
    (h : EntriesWritable entries) {column fuel : Nat} {rest : List Line} (parent : Nat)
    (hread : readEntries fuel column (entryLines column entries ++ rest) = some (entries, rest)) :
    readBlock (fuel + 1) parent (entryLines column entries ++ rest) =
      some (.record entries, rest) := by
  obtain ⟨word, cs, stop, ls, hlines, hword, hend⟩ := entryLines_eq_cons hne h column
  rw [hlines] at hread ⊢
  exact readBlock_record (hword.isItem _ _ _) (hword.keyed? hend _ _) rfl hread

mutual

/-- An entry is read with the value that it was written for. -/
theorem readEntries_valueLines : ∀ (value : Node), value.Writable → ∀ {word : String},
    KeyWord word.toList → ∀ {column fuel : Nat} {rest rest' : List Line}
    {entries : List (Key × Node)}, EndsList column rest →
    weight (valueLines column (word.toList ++ [':']) value) ≤ fuel →
    readEntries fuel column rest = some (entries, rest') →
    readEntries (fuel + 1) column (valueLines column (word.toList ++ [':']) value ++ rest) =
      some ((.text word, value) :: entries, rest')
  | .scalar s, h, word, hword, column, fuel, rest, rest', entries, hrest, _, hentries => by
    obtain ⟨c, cs, stop, ps, hpieces, hgap, hlist, hread⟩ := Scalar.readAs_pieces h hrest.ends
    have hlines : valueLines column (word.toList ++ [':']) (.scalar s) ++ rest =
        ⟨column, word.toList ++ ':' :: ' ' :: c :: cs, some (stop.getD '\n')⟩ ::
          (ps.map (Line.ofLaterPiece (column + indentation)) ++ rest) := by
      simp [valueLines, hpieces, scalarLines]
    have hhead : atEnd (' ' :: c :: cs) = false ∧ dropGap (' ' :: c :: cs) = c :: cs := by
      have hspace : isGap ' ' = true := by decide
      simp [atEnd, dropGap, hspace, hgap]
    rw [hlines]
    apply readEntries_flat (hword.opens _ _ _) rfl (hword.keyed?_ofList rfl _ _) hhead.1 _ hentries
    rw [hhead.2]
    unfold readFlat
    split
    · rename_i heq
      exact absurd (List.cons.inj heq).1 hlist
    · rw [hread]
      rfl
  | .list [], _, word, hword, column, fuel, rest, rest', entries, _, _, hentries => by
    have hlines : valueLines column (word.toList ++ [':']) (.list []) ++ rest =
        ⟨column, word.toList ++ ':' :: [' ', '[', ']'], some '\n'⟩ :: rest := by
      simp [valueLines, Line.ofBody]
    have hread : readFlat column ['[', ']'] (some '\n') rest = some (.list [], rest) := by
      unfold readFlat readEmptyList
      simp [dropGap, isGap, atEnd]
    rw [hlines]
    exact readEntries_flat (hword.opens _ _ _) rfl (hword.keyed?_ofList rfl _ _) rfl hread hentries
  | .list (.record first :: items), h, word, hword, column, fuel, rest, rest', entries, hrest,
      hfuel, hentries => by
    obtain ⟨l, ls, m, -, hlines, hopens, hindent, hitem, -⟩ :=
      itemLines_eq_cons h.2.1.1 h.2.1.2 column items
    have hvalue : valueLines column (word.toList ++ [':']) (.list (.record first :: items)) =
        ⟨column, word.toList ++ ':' :: [], some '\n'⟩ ::
          itemLines column (.record first :: items) := rfl
    rw [hvalue, weight_cons] at hfuel
    simp only [List.length_append, List.length_cons] at hfuel
    -- One step goes to the list, and those of its items remain.
    obtain ⟨fuel, rfl⟩ : ∃ n, fuel = n + 1 := ⟨fuel - 1, by omega⟩
    have hitems := readItems_itemLines (.record first :: items) h column fuel hrest (by omega)
    rw [hvalue, List.cons_append, hlines, List.cons_append]
    rw [hlines, List.cons_append] at hitems
    apply readEntries_block (hword.opens _ _ _) rfl (hword.keyed?_ofList rfl _ _) rfl _ _ hentries
    · rw [dropBlank_cons_of_opens hopens]
      simp [hasBlock, hindent, hitem]
    · rw [dropBlank_cons_of_opens hopens]
      exact readBlock_list hitem hindent hitems
  | .list (.scalar _ :: _), h, _, _, _, _, _, _, _, _, _, _ => absurd h.1 Bool.false_ne_true
  | .list (.list _ :: _), h, _, _, _, _, _, _, _, _, _, _ => absurd h.1 Bool.false_ne_true
  | .record value, h, word, hword, column, fuel, rest, rest', entries, hrest, hfuel,
      hentries => by
    obtain ⟨first, cs, stop, ls, hlines, hfirst, -⟩ :=
      entryLines_eq_cons h.1 h.2 (column + indentation)
    have hvalue : valueLines column (word.toList ++ [':']) (.record value) =
        ⟨column, word.toList ++ ':' :: [], some '\n'⟩ ::
          entryLines (column + indentation) value := rfl
    rw [hvalue, weight_cons] at hfuel
    simp only [List.length_append, List.length_cons] at hfuel
    -- One step goes to the record, and those of its entries remain.
    obtain ⟨fuel, rfl⟩ : ∃ n, fuel = n + 1 := ⟨fuel - 1, by omega⟩
    have hread := readEntries_entryLines value h.2 _ fuel hrest.ends.endsRecord (by omega)
    have hblock := readBlock_entryLines h.1 h.2 column hread
    have hopens := hfirst.opens (column + indentation) (':' :: cs) stop
    have hright : column < column + indentation := by
      unfold indentation
      omega
    rw [hvalue, List.cons_append]
    rw [hlines, List.cons_append] at hblock ⊢
    apply readEntries_block (hword.opens _ _ _) rfl (hword.keyed?_ofList rfl _ _) rfl _ _ hentries
    · rw [dropBlank_cons_of_opens hopens]
      simp [hasBlock, hright]
    · rw [dropBlank_cons_of_opens hopens]
      exact hblock

/-- The items of a list are read as they were. -/
theorem readItems_itemLines : ∀ (items : List Node), ItemsWritable items →
    ∀ (column fuel : Nat) {rest : List Line}, EndsList column rest →
    weight (itemLines column items) < fuel →
    readItems fuel column (itemLines column items ++ rest) = some (items, rest)
  | [], _, column, fuel, rest, hrest, hfuel => by
    obtain ⟨fuel, rfl⟩ : ∃ n, fuel = n + 1 := ⟨fuel - 1, by omega⟩
    exact readItems_nil hrest
  | .record entries :: items, h, column, fuel, rest, hrest, hfuel => by
    obtain ⟨hne, hentries⟩ := h.2.1
    obtain ⟨l, ls, m, hfirst, hlines, hopens, hindent, hitem, hundashed, hlength⟩ :=
      itemLines_eq_cons hne hentries column items
    rw [hlines, weight_cons, weight_append, hlength] at hfuel
    have hweight : weight (entryLines (column + indentation) entries) =
        l.body.length + 1 + weight ls := by
      rw [hfirst, weight_cons]
    -- One step goes to the dash and one to the record behind it.
    obtain ⟨fuel, rfl⟩ : ∃ n, fuel = n + 2 := ⟨fuel - 2, by omega⟩
    have hends := ends_itemLines items hrest
    have hread := readEntries_entryLines entries hentries _ fuel hends.endsRecord (by omega)
    have hblock := readBlock_entryLines hne hentries column hread
    have hitems := readItems_itemLines items h.2.2 column (fuel + 1) hrest (by omega)
    rw [hfirst, List.cons_append, ← hundashed] at hblock
    rw [hlines, List.cons_append, List.append_assoc]
    apply readItems_cons hopens hindent hitem _ hblock hitems
    obtain ⟨word, cs, stop, _, heq, hword, -⟩ :=
      entryLines_eq_cons hne hentries (column + indentation)
    rw [hfirst] at heq
    rw [hundashed, (List.cons.inj heq).1]
    exact (hword.opens _ _ _).isBlank
  | .scalar _ :: _, h, _, _, _, _, _ => absurd h.1 Bool.false_ne_true
  | .list _ :: _, h, _, _, _, _, _ => absurd h.1 Bool.false_ne_true

/-- The entries of a record are read as they were. -/
theorem readEntries_entryLines : ∀ (entries : List (Key × Node)), EntriesWritable entries →
    ∀ (column fuel : Nat) {rest : List Line}, EndsRecord column rest →
    weight (entryLines column entries) < fuel →
    readEntries fuel column (entryLines column entries ++ rest) = some (entries, rest)
  | [], _, column, fuel, rest, hrest, hfuel => by
    obtain ⟨fuel, rfl⟩ : ∃ n, fuel = n + 1 := ⟨fuel - 1, by omega⟩
    exact readEntries_nil hrest
  | (key, value) :: entries, h, column, fuel, rest, hrest, hfuel => by
    obtain ⟨⟨word, rfl, hword⟩, hvalue, hentries⟩ := h
    have hlines : entryLines column ((.text word, value) :: entries) =
        valueLines column (word.toList ++ [':']) value ++ entryLines column entries := rfl
    have hpos := weight_valueLines_pos column word.toList value
    rw [hlines, weight_append] at hfuel
    -- One step goes to this entry, which its first line pays for.
    obtain ⟨fuel, rfl⟩ : ∃ n, fuel = n + 1 := ⟨fuel - 1, by omega⟩
    have hread := readEntries_entryLines entries hentries column fuel hrest (by omega)
    rw [hlines, List.append_assoc]
    exact readEntries_valueLines value hvalue hword (endsList_entryLines hentries hrest) (by omega)
      hread

end

/-! ## Texts -/

/-- A record is read from its first line on, since nothing opens the document in front of it. -/
theorem dropOpening_entryLines {entries : List (Key × Node)} (hne : entries ≠ [])
    (h : EntriesWritable entries) : dropOpening (entryLines 0 entries) = entryLines 0 entries := by
  obtain ⟨word, cs, stop, ls, hlines, hword, hend⟩ := entryLines_eq_cons hne h 0
  have hmark : Line.isDocumentMark ⟨0, word ++ ':' :: cs, stop⟩ = false := by
    have hkey := hword.keyed? hend 0 stop
    -- A mark between documents has no key.
    cases hmark : Line.isDocumentMark ⟨0, word ++ ':' :: cs, stop⟩ with
    | false => rfl
    | true =>
      rw [Line.keyed?, hmark] at hkey
      cases hkey
  rw [hlines, dropOpening, dropBlank_cons_of_opens (hword.opens _ _ _)]
  simp [hmark]

/-- **Reading undoes writing**: the text of a record is read as that record. -/
theorem parse?_render {entries : List (Key × Node)} (hne : entries ≠ [])
    (h : EntriesWritable entries) : parse? (render (.record entries)) = some (.record entries) := by
  have hwritten := written_entryLines entries h 0
  have hprintable := isPrintable_unlines hwritten
  have hreadable : (unlines (entryLines 0 entries)).all isReadable = true := by
    rw [List.all_eq_true] at hprintable ⊢
    intro c hc
    exact isReadable_of_isPrintable (hprintable c hc)
  have hread : readBlock (fuelFor (entryLines 0 entries)) 0 (entryLines 0 entries) =
      some (.record entries, []) := by
    -- One step goes to the record, and those of its entries are bounded by their weight.
    have hfuel : fuelFor (entryLines 0 entries) = 2 * weight (entryLines 0 entries) + 1 + 1 := rfl
    have hentries := readEntries_entryLines entries h 0 (2 * weight (entryLines 0 entries) + 1)
      (endsRecord_nil 0) (by omega)
    have hblock := readBlock_entryLines hne h 0 hentries
    rw [List.append_nil] at hblock
    rw [hfuel, hblock]
  rw [parse?, render, blockLines, String.toList_ofList, if_pos hreadable,
    unifyBreaks_of_isPrintable hprintable, lines_unlines hwritten, dropOpening_entryLines hne h]
  simp [hread]

end Node

end SchemaSummary.Yaml
