import SchemaSummary.Proofs.Yaml.Pieces

/-! # Reading quoted scalars

  - Between double quotes every text stands on one line, since its breaks are escaped. It is read
    as it was, whatever it consists of.
  - Between single quotes a text goes on over as many lines as it has breaks. It is read as it
    was if it is printable, has no LF and no spaces next to its breaks.
-/

namespace SchemaSummary.Yaml

/-! ## Double quotes -/

/-- Whether a character may stand on a line as it is. -/
def Bare (c : Char) : Prop := isPrintable c = true ∧ isBreak c = false

instance (c : Char) : Decidable (Bare c) := inferInstanceAs (Decidable (_ ∧ _))

theorem bare_of_mem_hexDigits {width n : Nat} {c : Char} (h : c ∈ hexDigits width n) : Bare c := by
  have hdigit : ∀ d < 16, Bare (digitChar d) := by decide
  induction width generalizing n with
  | zero => cases h
  | succ width ih =>
    rw [hexDigits, List.mem_append, List.mem_singleton] at h
    rcases h with h | h
    · exact ih h
    · rw [h]
      exact hdigit (n % 16) (Nat.mod_lt _ (by decide))

theorem bare_of_mem_escapeCode {c d : Char} (h : d ∈ escapeCode c) : Bare d := by
  have hcode : ∀ (mark : Char) (width : Nat), Bare mark →
      d ∈ '\\' :: mark :: hexDigits width c.toNat → Bare d := by
    intro mark width hmark hd
    rw [List.mem_cons, List.mem_cons] at hd
    rcases hd with hd | hd | hd
    · rw [hd]
      decide
    · rw [hd]
      exact hmark
    · exact bare_of_mem_hexDigits hd
  unfold escapeCode at h
  split at h
  · exact hcode 'x' 2 (by decide) h
  · split at h
    · exact hcode 'u' 4 (by decide) h
    · exact hcode 'U' 8 (by decide) h

/-- Every escape consists of characters that may stand on a line as they are. -/
theorem bare_of_mem_escape {c d : Char} (h : d ∈ escape c) : Bare d := by
  have hletter : ∀ p ∈ escapeLetters, Bare p.2 := by decide
  unfold escape at h
  -- A character has a letter, or else a code, or stands for itself.
  split at h
  · split at h
    · rename_i letter hlookup
      obtain ⟨before, after, heq, -⟩ := List.lookup_eq_some_iff.mp hlookup
      have hbare := hletter (c, letter) (by simp [heq])
      rw [List.mem_cons, List.mem_singleton] at h
      rcases h with h | h
      · rw [h]
        decide
      · rw [h]
        exact hbare
    · exact bare_of_mem_escapeCode h
  · rename_i hneeds
    rw [List.mem_singleton] at h
    simp only [needsEscape, Bool.or_eq_true, not_or, Bool.not_eq_true', Bool.not_eq_true,
      Bool.not_eq_false] at hneeds
    rw [h]
    exact ⟨hneeds.1.1.1, hneeds.1.1.2⟩

/-- A text between double quotes as it is written. -/
theorem bare_of_mem_doubleQuoted {v : List Char} {d : Char}
    (h : d ∈ '"' :: v.flatMap escape ++ ['"']) : Bare d := by
  rw [List.cons_append, List.mem_cons, List.mem_append, List.mem_flatMap, List.mem_singleton] at h
  rcases h with h | ⟨c, -, h⟩ | h
  · rw [h]
    decide
  · exact bare_of_mem_escape h
  · rw [h]
    decide

theorem isPrintable_doubleQuoted (v : List Char) :
    ('"' :: v.flatMap escape ++ ['"']).all isPrintable = true := by
  rw [List.all_eq_true]
  intro c hc
  exact (bare_of_mem_doubleQuoted hc).1

/-- A text between double quotes is one piece, whatever breaks it has. -/
theorem pieces_doubleQuoted (v : List Char) :
    pieces ('"' :: v.flatMap escape ++ ['"']) = [('"' :: v.flatMap escape ++ ['"'], none)] := by
  apply pieces_of_unbroken _ (List.cons_ne_nil _ _)
  rw [List.any_eq_false]
  intro c hc
  rw [(bare_of_mem_doubleQuoted hc).2]
  decide

/-- **Double quotes**: a text is on one line, and is read as it was. -/
theorem readScalar_doubleQuoted (v : List Char) (parent : Nat) (stop : Option Char)
    (rest : List Line) :
    readScalar parent ('"' :: v.flatMap escape ++ ['"']) stop rest =
      some (⟨String.ofList v, true⟩, rest) := by
  have hread : readQuoted .double (v.flatMap escape ++ ['"']) stop rest =
      some ([(v, none)], rest) := by
    rw [readQuoted.eq_def, Quote.scan, scanDouble_flatMap_escape]
    simp [atEnd, dropGap]
  simp [readScalar, Quote.ofMark?, hread, joinParts_singleton]

/-! ## Spaces next to breaks -/

theorem adjacent_append {p q : Char → Bool} {cs ds : List Char}
    (h : adjacent p q (cs ++ ds) = false) : adjacent p q ds = false := by
  induction cs with
  | nil => exact h
  | cons c cs ih =>
    apply ih
    cases hrest : cs ++ ds with
    | nil => rfl
    | cons d rest =>
      rw [List.cons_append, hrest, adjacent, Bool.or_eq_false_iff] at h
      exact h.2

/-- No space stands in front of a break. -/
theorem getLast?_ne_of_adjacent {cs rest : List Char} {b : Char} (hb : isBreak b = true)
    (h : adjacent (· == ' ') isBreak (cs ++ b :: rest) = false) : cs.getLast? ≠ some ' ' := by
  intro hlast
  obtain ⟨front, rfl⟩ := List.getLast?_eq_some_iff.mp hlast
  rw [List.append_assoc] at h
  have := adjacent_append h
  simp [adjacent, hb] at this

/-- No space stands behind a break. -/
theorem head?_ne_of_adjacent {cs rest : List Char} {b : Char} (hb : isBreak b = true)
    (h : adjacent isBreak (· == ' ') (cs ++ b :: rest) = false) : rest.head? ≠ some ' ' := by
  intro hhead
  obtain ⟨tail, rfl⟩ := List.head?_eq_some_iff.mp hhead
  have := adjacent_append h
  simp [adjacent, hb] at this

/-- What a text between single quotes has to be like to be read as it was. -/
structure SingleQuotable (v : List Char) : Prop where
  printable : v.all isPrintable = true
  foldable : '\n' ∉ v
  before : adjacent (· == ' ') isBreak v = false
  behind : adjacent isBreak (· == ' ') v = false

/-- What stands behind a break is like the whole text. -/
theorem SingleQuotable.rest {cs rest : List Char} {b : Char}
    (h : SingleQuotable (cs ++ b :: rest)) : SingleQuotable rest := by
  have hsplit : cs ++ b :: rest = (cs ++ [b]) ++ rest := by simp
  refine ⟨?_, ?_, ?_, ?_⟩
  · have := h.printable
    simp only [List.all_append, List.all_cons, Bool.and_eq_true] at this
    exact this.2.2
  · intro hmem
    exact h.foldable (by simp [hmem])
  · exact adjacent_append (hsplit ▸ h.before)
  · exact adjacent_append (hsplit ▸ h.behind)

/-! ## Single quotes -/

/-- Joints that are not folded: breaks other than LF. -/
def Unfolded (run : List Joint) : Prop := ∀ j ∈ run, ∃ b, j = Joint.broken b ∧ b ≠ '\n'

theorem Unfolded.foldRun {run : List Joint} (h : Unfolded run) :
    Joint.foldRun run = run.flatMap Joint.text := by
  have hmem : Joint.broken '\n' ∉ run := by
    intro hmem
    obtain ⟨b, hb, hne⟩ := h _ hmem
    exact hne (Joint.broken.inj hb).symm
  unfold Joint.foldRun
  -- Only runs that begin with an LF are folded.
  split
  · simp at hmem
  · simp at hmem
  · rfl

theorem Unfolded.append {run : List Joint} (h : Unfolded run) {b : Char} (hb : b ≠ '\n') :
    Unfolded (run ++ [.broken b]) := by
  intro j hj
  rw [List.mem_append, List.mem_singleton] at hj
  rcases hj with hj | hj
  · exact h j hj
  · exact ⟨b, hj, hb⟩

/-- Whether parts make up a text, whatever breaks came before. -/
def MakeUp (parts : List Part) (v : List Char) : Prop :=
  ∀ run, Unfolded run → joinParts run parts = run.flatMap Joint.text ++ v

theorem makeUp_singleton (v : List Char) : MakeUp [(v, none)] v := by
  intro run hrun
  simp [joinParts, hrun.foldRun]

/-- A line in front of others puts its text and its break in front of theirs. -/
theorem MakeUp.cons {parts : List Part} {v : List Char} (h : MakeUp parts v) {b : Char}
    (hb : b ≠ '\n') (cs : List Char) : MakeUp ((cs, some (.broken b)) :: parts) (cs ++ b :: v) := by
  intro run hrun
  -- The break belongs to the run before it if nothing stands between them.
  by_cases hcs : cs = []
  · subst hcs
    simp [joinParts, h _ (hrun.append hb), Joint.text]
  · obtain ⟨c, cs, rfl⟩ := List.exists_cons_of_ne_nil hcs
    have hsingle : Unfolded [.broken b] := by
      intro j hj
      exact ⟨b, List.mem_singleton.mp hj, hb⟩
    simp [joinParts, hrun.foldRun, h _ hsingle, Joint.text]

/-- Doubling adds nothing but quotes. -/
theorem mem_flatMap_doubled {v : List Char} {d : Char} (h : d ∈ v.flatMap doubled) :
    d = '\x27' ∨ d ∈ v := by
  obtain ⟨c, hc, hd⟩ := List.mem_flatMap.mp h
  unfold doubled at hd
  split at hd
  · left
    simpa using hd
  · right
    rw [List.mem_singleton] at hd
    exact hd ▸ hc

theorem unbroken_doubled {v : List Char} (h : v.any isBreak = false) :
    (v.flatMap doubled).any isBreak = false := by
  rw [List.any_eq_false] at h ⊢
  intro d hd
  rcases mem_flatMap_doubled hd with rfl | hd
  · decide
  · exact h d hd

/-- A text between single quotes as it is written. -/
theorem isPrintable_singleQuoted {v : List Char} (h : v.all isPrintable = true) :
    ('\x27' :: v.flatMap doubled ++ ['\x27']).all isPrintable = true := by
  rw [List.all_eq_true] at h ⊢
  intro d hd
  rw [List.cons_append, List.mem_cons, List.mem_append, List.mem_singleton] at hd
  rcases hd with rfl | hd | rfl
  · decide
  · rcases mem_flatMap_doubled hd with rfl | hd
    · decide
    · exact h d hd
  · decide

/-- A line that is left before the closing quote ends where it is broken. -/
theorem scan_doubled {v : List Char} (hprintable : v.all isPrintable = true)
    (hlast : v.getLast? ≠ some ' ') :
    Quote.scan .single (v.flatMap doubled) = some (v, .broken) := by
  have hscan := scanSingle_flatMap_doubled_append v []
  rw [List.append_nil] at hscan
  simp [Quote.scan, hscan, scanSingle, dropGapEnd_of_getLast hprintable hlast]

theorem scan_doubled_quote (v : List Char) :
    Quote.scan .single (v.flatMap doubled ++ ['\x27']) = some (v, .closed []) := by
  rw [Quote.scan, scanSingle_flatMap_doubled_append]
  simp [scanSingle]

/-- A piece of a text between single quotes other than the first one is read from behind its
    indentation. -/
theorem dropGap_ofLaterPiece {v : List Char} (h : SingleQuotable v) (hhead : v.head? ≠ some ' ')
    {p : Piece} {ps : List Piece} (hpieces : pieces (v.flatMap doubled ++ ['\x27']) = p :: ps)
    (column : Nat) : dropGap (Line.ofLaterPiece column p).body = p.1 := by
  have hfirst : p.1.head? ≠ some ' ' := by
    intro hp
    have htext := head?_of_pieces hpieces hp
    cases v with
    | nil => cases htext
    | cons c v =>
      by_cases hc : c = '\x27'
      · subst hc
        cases htext
      · have hspace : c = ' ' := by simpa [doubled, hc] using htext
        exact hhead (by rw [hspace]; rfl)
  have hprintable : p.1.all isPrintable = true := by
    have hall := isPrintable_singleQuoted h.printable
    rw [List.cons_append, List.all_cons, Bool.and_eq_true] at hall
    have hp : p ∈ pieces (v.flatMap doubled ++ ['\x27']) := by
      rw [hpieces]
      exact List.mem_cons_self
    exact (written_of_mem_pieces hall.2 hp).printable
  rw [Line.ofLaterPiece_body, dropWhile_space hfirst, dropGap_of_head hprintable hfirst]

/-- A line that is left before the closing quote is read with the lines below it. -/
theorem readQuoted_cons {column : Nat} (hcolumn : 0 < column) {cs v : List Char} {b : Char}
    (hb : isBreak b = true) (h : SingleQuotable (cs ++ b :: v)) {p : Piece} {ps : List Piece}
    (hpieces : pieces (v.flatMap doubled ++ ['\x27']) = p :: ps) {ls rest : List Line}
    {parts : List Part} (hread : readQuoted .single p.1 (some (p.2.getD '\n')) ls =
      some (parts, rest)) :
    readQuoted .single (cs.flatMap doubled) (some b) (Line.ofLaterPiece column p :: ls) =
      some ((cs, some (.broken b)) :: parts, rest) := by
  have hprintable : cs.all isPrintable = true := by
    have := h.printable
    rw [List.all_append, Bool.and_eq_true] at this
    exact this.1
  have hscan := scan_doubled hprintable (getLast?_ne_of_adjacent hb h.before)
  have hmark := Line.isDocumentMark_ofLaterPiece hcolumn p
  have hbody := dropGap_ofLaterPiece h.rest (head?_ne_of_adjacent hb h.behind) hpieces column
  rw [readQuoted.eq_def, hscan]
  simp only [hmark, Bool.false_eq_true, if_false, hbody, Line.ofLaterPiece_stop, hread,
    Option.map_some, Ending.joint?]

/-- The parts that a text between single quotes is read as make up that text. -/
theorem readQuoted_single {column : Nat} (hcolumn : 0 < column) (rest : List Line)
    {v : List Char} (h : SingleQuotable v) :
    ∃ (p : Piece) (ps : List Piece) (parts : List Part),
      pieces (v.flatMap doubled ++ ['\x27']) = p :: ps ∧
      readQuoted .single p.1 (some (p.2.getD '\n')) (ps.map (Line.ofLaterPiece column) ++ rest) =
        some (parts, rest) ∧
      MakeUp parts v := by
  -- One line for each break: every line but the last is left at its end.
  induction v using break_induction with
  | unbroken v hv =>
    have htext : (v.flatMap doubled ++ ['\x27']).any isBreak = false := by
      rw [List.any_append, unbroken_doubled hv]
      decide
    refine ⟨_, [], [(v, none)], pieces_of_unbroken htext (by simp), ?_, makeUp_singleton v⟩
    rw [readQuoted.eq_def, scan_doubled_quote]
    simp [atEnd, dropGap]
  | broken cs b tail hcs hb ih =>
    obtain ⟨p, ps, parts, hpieces, hread, hparts⟩ := ih h.rest
    have hquote : b ≠ '\x27' := by
      intro heq
      rw [heq] at hb
      cases hb
    have hne : b ≠ '\n' := by
      intro heq
      exact h.foldable (by simp [heq])
    have htext : (cs ++ b :: tail).flatMap doubled ++ ['\x27'] =
        cs.flatMap doubled ++ b :: (tail.flatMap doubled ++ ['\x27']) := by
      simp [doubled, hquote]
    refine ⟨(cs.flatMap doubled, some b), p :: ps, (cs, some (.broken b)) :: parts, ?_, ?_, ?_⟩
    · rw [htext, pieces_append_cons (unbroken_doubled hcs) hb, hpieces]
    · exact readQuoted_cons hcolumn hb h hpieces hread
    · exact hparts.cons hne cs

/-- **Single quotes**: a text is read as it was, with the lines behind it left over. -/
theorem readScalar_singleQuoted {v : List Char} (h : SingleQuotable v) (parent : Nat)
    {column : Nat} (hcolumn : 0 < column) (rest : List Line) :
    ∃ (p : Piece) (ps : List Piece),
      pieces ('\x27' :: v.flatMap doubled ++ ['\x27']) = ('\x27' :: p.1, p.2) :: ps ∧
      readScalar parent ('\x27' :: p.1) (some (p.2.getD '\n'))
        (ps.map (Line.ofLaterPiece column) ++ rest) = some (⟨String.ofList v, true⟩, rest) := by
  obtain ⟨p, ps, parts, hpieces, hread, hparts⟩ := readQuoted_single hcolumn rest h
  refine ⟨p, ps, ?_, ?_⟩
  · rw [List.cons_append, pieces, hpieces]
    rfl
  · have htext : joinParts [] parts = v := hparts [] (by simp [Unfolded])
    simp [readScalar, Quote.ofMark?, hread, htext]

end SchemaSummary.Yaml
