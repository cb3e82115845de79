import SchemaSummary.Yaml.Character

/-! # Lines

  A text as the lines it consists of. A line keeps the break that ends it, because not every
  break is LF, and it keeps its indentation apart from its contents, because indentation is
  what tells blocks apart.
-/

namespace SchemaSummary.Yaml

/-! ## Pieces -/

/-- A stretch of text without breaks, and the break that ends it if there is one. -/
abbrev Piece := List Char × Option Char

/-- The text of a piece, its break included. -/
def Piece.text (p : Piece) : List Char := p.1 ++ p.2.toList

/-- Cuts a text after each of its breaks; only the last piece may be without one. -/
def pieces : List Char → List Piece
  | [] => []
  | c :: cs =>
    if isBreak c then ([], some c) :: pieces cs
    else
      match pieces cs with
      | [] => [([c], none)]
      | p :: ps => (c :: p.1, p.2) :: ps

/-- The pieces of a text are the whole text. -/
theorem flatMap_text_pieces (cs : List Char) : (pieces cs).flatMap Piece.text = cs := by
  induction cs with
  | nil => rfl
  | cons c cs ih =>
    rw [pieces]
    split
    · simp [Piece.text, ih]
    · cases h : pieces cs with
      | nil =>
        rw [h] at ih
        simp [Piece.text, ← ih]
      | cons p ps =>
        rw [h] at ih
        simpa [Piece.text] using ih

/-- A break ends the piece before it. -/
theorem pieces_append_cons {cs : List Char} (h : cs.any isBreak = false) {b : Char}
    (hb : isBreak b = true) (rest : List Char) :
    pieces (cs ++ b :: rest) = (cs, some b) :: pieces rest := by
  induction cs with
  | nil => simp [pieces, hb]
  | cons c cs ih =>
    simp only [List.any_cons, Bool.or_eq_false_iff] at h
    rw [List.cons_append, pieces, ih h.2]
    simp [h.1]

/-! ## Lines -/

/-- A line: its indentation, its contents, and the break that ends it if there is one.
    The contents do not begin with a space. -/
structure Line where
  indent : Nat
  body : List Char
  stop : Option Char
  deriving Repr, BEq, DecidableEq, Inhabited

namespace Line

/-- A line that ends with LF. -/
def ofBody (indent : Nat) (body : List Char) : Line := ⟨indent, body, some '\n'⟩

/-- A piece as a line. -/
def ofPiece (p : Piece) : Line :=
  ⟨(p.1.takeWhile (· == ' ')).length, p.1.dropWhile (· == ' '), p.2⟩

/-- The text of a line, its break included. -/
def text (l : Line) : List Char := List.replicate l.indent ' ' ++ l.body ++ l.stop.toList

/-- Whether a line holds nothing but its indentation. -/
def isBlank (l : Line) : Bool := l.body.isEmpty

/-- A piece of a scalar, other than its first, as a line at `column`. Without any text it is not
    indented; a last piece gets an end. -/
def ofLaterPiece (column : Nat) (p : Piece) : Line :=
  let l := ofPiece (p.1, some (p.2.getD '\n'))
  if p.1.isEmpty then l else { l with indent := column + l.indent }

end Line

/-! ## Marks between documents -/

/-- Whether a text begins like the mark between two documents. -/
def marksDocument (v : List Char) : Bool :=
  v.take 3 == ['-', '-', '-'] || v.take 3 == ['.', '.', '.']

/-- Whether a line begins with a mark between documents. Indented, it would be part of a text. -/
def Line.isDocumentMark (l : Line) : Bool :=
  l.indent == 0 && marksDocument l.body && endsToken (l.body.drop 3)

/-! ## Texts as lines -/

/-- The lines of a text. -/
def lines (cs : List Char) : List Line := (pieces cs).map Line.ofPiece

/-- The text that consists of the given lines. -/
def unlines (ls : List Line) : List Char := ls.flatMap Line.text

@[simp] theorem unlines_nil : unlines [] = [] := rfl

@[simp] theorem unlines_cons (l : Line) (ls : List Line) :
    unlines (l :: ls) = l.text ++ unlines ls := rfl

@[simp] theorem unlines_append (ls ms : List Line) :
    unlines (ls ++ ms) = unlines ls ++ unlines ms := by
  rw [unlines, List.flatMap_append]
  rfl

theorem takeWhile_space {cs : List Char} (h : cs.head? ≠ some ' ') :
    cs.takeWhile (· == ' ') = [] := by
  cases cs with
  | nil => rfl
  | cons c cs =>
    have hc : c ≠ ' ' := fun hc => h (by rw [hc]; rfl)
    simp [hc]

theorem dropWhile_space {cs : List Char} (h : cs.head? ≠ some ' ') :
    cs.dropWhile (· == ' ') = cs := by
  cases cs with
  | nil => rfl
  | cons c cs =>
    have hc : c ≠ ' ' := fun hc => h (by rw [hc]; rfl)
    simp [hc]

/-- A line that is written out and ends with a break is read as it was. -/
theorem lines_text_append {l : Line} {b : Char} (hstop : l.stop = some b) (hb : isBreak b = true)
    (hbody : l.body.any isBreak = false) (hhead : l.body.head? ≠ some ' ') (rest : List Char) :
    lines (l.text ++ rest) = l :: lines rest := by
  obtain ⟨indent, body, stop⟩ := l
  subst hstop
  have hfree : (List.replicate indent ' ' ++ body).any isBreak = false := by
    simp_all [isBreak]
  simp only [Line.text, Option.toList_some, List.append_assoc, List.singleton_append, lines]
  rw [← List.append_assoc, pieces_append_cons hfree hb, List.map_cons]
  congr 1
  simp [Line.ofPiece, takeWhile_space hhead, dropWhile_space hhead]

end SchemaSummary.Yaml
