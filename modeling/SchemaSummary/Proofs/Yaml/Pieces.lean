import SchemaSummary.Proofs.Yaml.Lines

/-! # Pieces of scalars

  The pieces into which a written scalar is cut at its breaks, and the lines that they are
  written as.
-/

namespace SchemaSummary.Yaml

/-! ## Cutting at breaks -/

/-- A text without breaks is one piece. -/
theorem pieces_of_unbroken {cs : List Char} (h : cs.any isBreak = false) (hne : cs ≠ []) :
    pieces cs = [(cs, none)] := by
  induction cs with
  | nil => exact absurd rfl hne
  | cons c cs ih =>
    simp only [List.any_cons, Bool.or_eq_false_iff] at h
    rw [pieces]
    cases cs with
    | nil => simp [h.1, pieces]
    | cons d cs =>
      rw [ih h.2 (by simp)]
      simp [h.1]

/-- **Induction on breaks**: a text has no break, or it begins with a stretch that a break
    ends. -/
theorem break_induction {P : List Char → Prop}
    (unbroken : ∀ cs, cs.any isBreak = false → P cs)
    (broken : ∀ cs b rest, cs.any isBreak = false → isBreak b = true → P rest →
      P (cs ++ b :: rest)) (cs : List Char) : P cs := by
  -- The recursion goes on behind the first break.
  cases h : cs.find? isBreak with
  | none =>
    apply unbroken
    rw [List.any_eq_false]
    exact List.find?_eq_none.mp h
  | some b =>
    obtain ⟨hb, start, rest, rfl, hstart⟩ := List.find?_eq_some_iff_append.mp h
    apply broken start b rest _ hb (break_induction unbroken broken rest)
    rw [List.any_eq_false]
    simpa using hstart
termination_by cs.length

/-- The only break in a piece is the one that ends it. -/
theorem unbroken_of_mem_pieces {cs : List Char} {p : Piece} (h : p ∈ pieces cs) :
    p.1.any isBreak = false ∧ ∀ b ∈ p.2, isBreak b = true := by
  induction cs using break_induction generalizing p with
  | unbroken cs hcs =>
    cases cs with
    | nil => cases h
    | cons c cs =>
      rw [pieces_of_unbroken hcs (by simp), List.mem_singleton] at h
      subst h
      exact ⟨hcs, by simp⟩
  | broken cs b rest hcs hb ih =>
    rw [pieces_append_cons hcs hb, List.mem_cons] at h
    rcases h with rfl | h
    · exact ⟨hcs, by simpa using hb⟩
    · exact ih h

theorem mem_of_mem_pieces {cs : List Char} {p : Piece} (h : p ∈ pieces cs) {c : Char}
    (hc : c ∈ p.text) : c ∈ cs := by
  rw [← flatMap_text_pieces cs]
  exact List.mem_flatMap.mpr ⟨p, h, hc⟩

/-- What stands first in a text stands first in its first piece, unless that is empty. -/
theorem head?_of_pieces {cs : List Char} {p : Piece} {ps : List Piece}
    (h : pieces cs = p :: ps) {c : Char} (hc : p.1.head? = some c) : cs.head? = some c := by
  rw [← flatMap_text_pieces cs, h, List.flatMap_cons, Piece.text, List.append_assoc,
    List.head?_append, hc, Option.some_or]

/-! ## Pieces of printable texts -/

/-- A piece as it is written; a last piece gets an LF as its end. -/
structure Piece.Written (p : Piece) : Prop where
  printable : p.1.all isPrintable = true
  unbroken : p.1.any isBreak = false
  stop : isBreak (p.2.getD '\n') = true ∧ isPrintable (p.2.getD '\n') = true

theorem written_of_mem_pieces {cs : List Char} (h : cs.all isPrintable = true) {p : Piece}
    (hp : p ∈ pieces cs) : p.Written := by
  have hall : ∀ c ∈ p.text, isPrintable c = true :=
    fun c hc => List.all_eq_true.mp h c (mem_of_mem_pieces hp hc)
  obtain ⟨hunbroken, hbreak⟩ := unbroken_of_mem_pieces hp
  refine ⟨?_, hunbroken, ?_⟩
  · rw [List.all_eq_true]
    exact fun c hc => hall c (List.mem_append_left _ hc)
  · cases hstop : p.2 with
    | none => decide
    | some b => exact ⟨hbreak b hstop, hall b (by simp [Piece.text, hstop])⟩

/-! ## Pieces as lines -/

namespace Line

theorem ofLaterPiece_stop (column : Nat) (p : Piece) :
    (ofLaterPiece column p).stop = some (p.2.getD '\n') := by
  unfold ofLaterPiece
  split <;> rfl

theorem ofLaterPiece_body (column : Nat) (p : Piece) :
    (ofLaterPiece column p).body = p.1.dropWhile (· == ' ') := by
  unfold ofLaterPiece
  split <;> rfl

theorem ofLaterPiece_indent_of_nil (column : Nat) (stop : Option Char) :
    (ofLaterPiece column ([], stop)).indent = 0 := rfl

theorem ofLaterPiece_indent_of_ne_nil (column : Nat) {p : Piece} (h : p.1 ≠ []) :
    (ofLaterPiece column p).indent = column + (p.1.takeWhile (· == ' ')).length := by
  rw [ofLaterPiece, if_neg (by simpa using h)]
  rfl

/-- Without its indentation, the line of a piece is that piece. -/
theorem text_ofLaterPiece (column : Nat) (p : Piece) :
    text { ofLaterPiece column p with indent := (ofLaterPiece column p).indent - column } =
      p.1 ++ [p.2.getD '\n'] := by
  obtain ⟨cs, stop⟩ := p
  by_cases h : cs = []
  · -- A line of its break alone is not indented, and so there is nothing to take away.
    subst h
    simp [text, ofLaterPiece_stop, ofLaterPiece_body, ofLaterPiece_indent_of_nil]
  · -- The spaces that the piece begins with are part of the indentation of its line.
    have hspaces : List.replicate (cs.takeWhile (· == ' ')).length ' ' =
        cs.takeWhile (· == ' ') := by
      symm
      rw [List.eq_replicate_iff]
      refine ⟨rfl, ?_⟩
      intro c hc
      simpa using List.all_eq_true.mp List.all_takeWhile c hc
    have hindent := ofLaterPiece_indent_of_ne_nil column (p := (cs, stop)) h
    simp [text, ofLaterPiece_stop, ofLaterPiece_body, hindent, hspaces]

/-- To the right of the first column no line begins with a mark between documents. -/
theorem isDocumentMark_ofLaterPiece {column : Nat} (h : 0 < column) (p : Piece) :
    (ofLaterPiece column p).isDocumentMark = false := by
  obtain ⟨cs, stop⟩ := p
  by_cases hcs : cs = []
  · subst hcs
    rfl
  · have hindent := ofLaterPiece_indent_of_ne_nil column (p := (cs, stop)) hcs
    have hne : (ofLaterPiece column (cs, stop)).indent ≠ 0 := by omega
    simp [isDocumentMark, hne]

theorem written_ofLaterPiece (column : Nat) {p : Piece} (h : p.Written) :
    (ofLaterPiece column p).Written where
  stop := by
    rw [ofLaterPiece_stop]
    exact ⟨_, rfl, h.stop⟩
  printable := by
    rw [ofLaterPiece_body, List.all_eq_true]
    intro c hc
    exact List.all_eq_true.mp h.printable c (List.dropWhile_subset _ hc)
  unbroken := by
    rw [ofLaterPiece_body, List.any_eq_false]
    intro c hc
    exact List.any_eq_false.mp h.unbroken c (List.dropWhile_subset _ hc)
  head := by
    rw [ofLaterPiece_body]
    intro hhead
    have := List.head?_dropWhile_not (· == ' ') p.1
    rw [hhead] at this
    simp at this

/-! ## Lines that open something -/

/-- Whether an entry or an item begins with a line: what stands first on it is a small letter or
    a dash. -/
def Opens (l : Line) : Prop := ∃ c cs, l.body = c :: cs ∧ (c = '-' ∨ c.isLower = true)

theorem Opens.isBlank {l : Line} (h : l.Opens) : l.isBlank = false := by
  obtain ⟨c, cs, hbody, -⟩ := h
  rw [Line.isBlank, hbody]
  rfl

theorem Opens.head_ne {l : Line} (h : l.Opens) {c : Char} (hc : c ≠ '-')
    (hlower : c.isLower = false) : l.body.head? ≠ some c := by
  obtain ⟨d, ds, hbody, hd⟩ := h
  rw [hbody, List.head?_cons]
  intro heq
  have hdc : d = c := Option.some.inj heq
  rw [hdc] at hd
  rcases hd with hd | hd
  · exact hc hd
  · rw [hd] at hlower
    cases hlower

theorem Opens.dropOrderMark {l : Line} (h : l.Opens) : l.dropOrderMark = l := by
  have hmark := h.head_ne (c := '\uFEFF') (by decide) (by decide)
  obtain ⟨indent, body, stop⟩ := l
  rw [Line.dropOrderMark]
  intro cs stop' heq
  obtain ⟨-, hbody, -⟩ := Line.mk.inj heq
  rw [hbody] at hmark
  exact hmark rfl

end Line

/-- Whether a scalar in the block at `column` ends in front of lines. -/
def Ends (column : Nat) (ls : List Line) : Prop :=
  ∀ l ∈ ls.head?, l.Opens ∧ l.indent ≤ column

end SchemaSummary.Yaml
