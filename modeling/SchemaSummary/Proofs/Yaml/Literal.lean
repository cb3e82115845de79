import SchemaSummary.Proofs.Yaml.Pieces

/-! # Reading literal blocks

  A text with LF that is written as a literal block is read as it was:

  - the header says what the lines do not, and is read as it was written;
  - the block ends in front of the first line that stands further left than it does;
  - its contents are the text, with an LF at the end where the text has no break there, and the
    treatment of breaks that the header asks for takes nothing else away.
-/

namespace SchemaSummary.Yaml

/-! ## The breaks at the end -/

/-- The contents of the block in which a text is written: its last line has an end. -/
def blockText (v : List Char) : List Char := if v.getLast?.all isBreak then v else v ++ ['\n']

theorem flatMap_pieces_eq_blockText (v : List Char) :
    ((pieces v).flatMap fun p => p.1 ++ [p.2.getD '\n']) = blockText v := by
  induction v using break_induction with
  | unbroken v hv =>
    by_cases hne : v = []
    · subst hne
      rfl
    · have hlast : v.getLast?.all isBreak = false := by
        rw [List.getLast?_eq_some_getLast hne, Option.all_some]
        simpa using List.any_eq_false.mp hv _ (List.getLast_mem hne)
      simp [pieces_of_unbroken hv hne, blockText, hlast]
  | broken cs b rest hcs hb ih =>
    have hlast : (cs ++ b :: rest).getLast?.all isBreak = rest.getLast?.all isBreak := by
      by_cases hrest : rest = []
      · simp [hrest, hb]
      · rw [List.getLast?_append, List.getLast?_cons, List.getLast?_eq_some_getLast hrest]
        rfl
    rw [pieces_append_cons hcs hb, List.flatMap_cons, ih]
    unfold blockText
    rw [hlast]
    split <;> simp

/-- The treatment of breaks in the header leaves the text as it is. -/
theorem apply_blockText (v : List Char) : (Chomp.ofText v).apply (blockText v) = v := by
  -- What counts is how many breaks the text ends with: none, one or more.
  obtain ⟨w, rfl⟩ : ∃ w, v = w.reverse := ⟨v.reverse, by simp⟩
  cases w with
  | nil => rfl
  | cons b w =>
    by_cases hb : isBreak b = true
    · have hblock : blockText (b :: w).reverse = (b :: w).reverse := by
        simp [blockText, hb]
      rw [hblock]
      by_cases hw : w.head?.all isBreak = true
      · have hchomp : Chomp.ofText (b :: w).reverse = .keep := by
          simp [Chomp.ofText, hb, hw]
        rw [hchomp, Chomp.apply]
      · obtain ⟨c, cs, rfl⟩ : ∃ c cs, w = c :: cs := by
          apply List.exists_cons_of_ne_nil
          intro hnil
          simp [hnil] at hw
        have hc : isBreak c = false := by simpa using hw
        have hchomp : Chomp.ofText (b :: c :: cs).reverse = .clip := by
          simp [Chomp.ofText, hb, hc]
        have hstripped : Chomp.stripped (b :: c :: cs).reverse = (c :: cs).reverse := by
          simp [Chomp.stripped, hb, hc]
        have hempty : (c :: cs).reverse.isEmpty = false := by simp
        rw [hchomp, Chomp.apply, hstripped]
        simp only [hempty, Bool.false_eq_true, if_false]
        exact List.take_of_length_le (by simp)
    · -- The break of the last line was not there, and is taken away again.
      have hblock : blockText (b :: w).reverse = (b :: w).reverse ++ ['\n'] := by
        simp [blockText, hb]
      have hchomp : Chomp.ofText (b :: w).reverse = .strip := by
        simp [Chomp.ofText, hb]
      have hbreak : isBreak '\n' = true := by decide
      rw [hblock, hchomp, Chomp.apply, Chomp.stripped, List.reverse_append, List.reverse_reverse]
      simp [hb, hbreak]

/-! ## The header -/

/-- A header is read as it was. -/
theorem parse?_text (v : List Char) :
    ∃ cs, (LiteralHeader.ofText v).text = '|' :: cs ∧ cs.all isPrintable = true ∧
      cs.any isBreak = false ∧
      LiteralHeader.parse? (dropGapEnd cs) = some (LiteralHeader.ofText v) := by
  refine ⟨_, rfl, ?_⟩
  unfold LiteralHeader.ofText
  cases Chomp.ofText v <;> split <;> decide

/-! ## The lines of the block -/

theorem inLiteral_ofLaterPiece (column : Nat) (p : Piece) :
    inLiteral column (Line.ofLaterPiece column p) = true := by
  obtain ⟨cs, stop⟩ := p
  by_cases hcs : cs = []
  · subst hcs
    rfl
  · have hindent := Line.ofLaterPiece_indent_of_ne_nil column (p := (cs, stop)) hcs
    have hle : column ≤ (Line.ofLaterPiece column (cs, stop)).indent := by omega
    simp [inLiteral, hle]

/-- A literal block ends in front of what does not belong to it. -/
theorem split_inLiteral {parent column : Nat} (hcolumn : parent < column) (ps : List Piece)
    {rest : List Line} (hrest : Ends parent rest) :
    (ps.map (Line.ofLaterPiece column) ++ rest).takeWhile (inLiteral column) =
        ps.map (Line.ofLaterPiece column) ∧
      (ps.map (Line.ofLaterPiece column) ++ rest).dropWhile (inLiteral column) = rest := by
  have hin : ∀ l ∈ ps.map (Line.ofLaterPiece column), inLiteral column l = true := by
    intro l hl
    obtain ⟨p, -, rfl⟩ := List.mem_map.mp hl
    exact inLiteral_ofLaterPiece column p
  rw [List.takeWhile_append_of_pos hin, List.dropWhile_append_of_pos hin]
  -- The line that comes next is not blank and stands too far left.
  cases rest with
  | nil => simp
  | cons l rest =>
    obtain ⟨hopens, hindent⟩ := hrest l rfl
    have hle : ¬column ≤ l.indent := by omega
    have hout : inLiteral column l = false := by simp [inLiteral, hopens.isBlank, hle]
    simp [hout]

/-- Where the header says nothing about the column, the first line is not blank and shows it. -/
theorem first_line {v : List Char} (hprintable : v.all isPrintable = true) (hne : v ≠ [])
    (hindent : (LiteralHeader.ofText v).indent = none) :
    ∃ (c : Char) (cs : List Char) (stop : Option Char) (ps : List Piece),
      pieces v = (c :: cs, stop) :: ps ∧ c ≠ ' ' ∧ c ≠ '\t' := by
  obtain ⟨c, v, rfl⟩ := List.exists_cons_of_ne_nil hne
  have hc : (c == ' ' || isBreak c) = false := by
    cases h : c == ' ' || isBreak c with
    | false => rfl
    | true => simp [LiteralHeader.ofText, h] at hindent
  rw [Bool.or_eq_false_iff] at hc
  rw [List.all_cons, Bool.and_eq_true] at hprintable
  have hspace : c ≠ ' ' := by simpa using hc.1
  have htab : c ≠ '\t' := ne_of_isPrintable hprintable.1 (by decide)
  rw [pieces, hc.2]
  cases pieces v with
  | nil => exact ⟨c, [], none, [], rfl, hspace, htab⟩
  | cons p ps => exact ⟨c, p.1, p.2, ps, rfl, hspace, htab⟩

/-- The column of a block is found, by the header or by its first line. -/
theorem literalColumn_pieces {v : List Char} (hprintable : v.all isPrintable = true) (hne : v ≠ [])
    (parent : Nat) (rest : List Line) :
    let ls := (pieces v).map (Line.ofLaterPiece (parent + LiteralHeader.depth)) ++ rest
    ((LiteralHeader.ofText v).indent.isNone && beginsWithTab ls) = false ∧
      literalColumn parent (LiteralHeader.ofText v) ls = parent + LiteralHeader.depth := by
  intro ls
  cases hindent : (LiteralHeader.ofText v).indent with
  | some n =>
    have hn : n = LiteralHeader.depth := by
      unfold LiteralHeader.ofText at hindent
      split at hindent
      · exact (Option.some.inj hindent).symm
      · cases hindent
    simp [literalColumn, hindent, hn]
  | none =>
    obtain ⟨c, cs, stop, ps, hpieces, hspace, htab⟩ := first_line hprintable hne hindent
    have hbody : (Line.ofLaterPiece (parent + LiteralHeader.depth) (c :: cs, stop)).body =
        c :: cs := by
      simp [Line.ofLaterPiece_body, hspace]
    have hfirst : (Line.ofLaterPiece (parent + LiteralHeader.depth) (c :: cs, stop)).indent =
        parent + LiteralHeader.depth := by
      simp [Line.ofLaterPiece_indent_of_ne_nil, hspace]
    have hblank : (Line.ofLaterPiece (parent + LiteralHeader.depth) (c :: cs, stop)).isBlank =
        false := by
      simp [Line.isBlank, hbody]
    have hdepth : max 1 LiteralHeader.depth = LiteralHeader.depth := by decide
    constructor
    · simp [ls, hpieces, beginsWithTab, hblank, hbody, htab]
    · simp [ls, hpieces, literalColumn, hindent, hblank, hfirst, hdepth]

/-! ## The text of the block -/

/-- **Literal blocks**: a text is read as it was, with the lines behind it left over. -/
theorem readLiteral_pieces {v : List Char} (hprintable : v.all isPrintable = true) (hne : v ≠ [])
    {parent : Nat} {rest : List Line} (hrest : Ends parent rest) :
    readLiteral parent (LiteralHeader.ofText v)
      ((pieces v).map (Line.ofLaterPiece (parent + LiteralHeader.depth)) ++ rest) =
      some (v, rest) := by
  obtain ⟨htab, hcolumn⟩ := literalColumn_pieces hprintable hne parent rest
  have hlt : parent < parent + LiteralHeader.depth := by
    unfold LiteralHeader.depth
    omega
  obtain ⟨hblock, hleft⟩ := split_inLiteral hlt (pieces v) hrest
  have hchomp : (LiteralHeader.ofText v).chomp = Chomp.ofText v := rfl
  simp only [readLiteral, htab, Bool.false_eq_true, if_false, hcolumn, hblock, hleft,
    List.flatMap_map, Line.text_ofLaterPiece, flatMap_pieces_eq_blockText, hchomp, apply_blockText]

theorem readScalar_literal {v : List Char} (hprintable : v.all isPrintable = true) (hne : v ≠ [])
    {parent : Nat} {rest : List Line} (hrest : Ends parent rest) (stop : Option Char) :
    readScalar parent (LiteralHeader.ofText v).text stop
      ((pieces v).map (Line.ofLaterPiece (parent + LiteralHeader.depth)) ++ rest) =
      some (⟨String.ofList v, true⟩, rest) := by
  obtain ⟨cs, htext, -, -, hparse⟩ := parse?_text v
  simp [htext, readScalar, hparse, readLiteral_pieces hprintable hne hrest]

end SchemaSummary.Yaml
