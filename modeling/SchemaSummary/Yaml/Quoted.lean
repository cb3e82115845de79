import SchemaSummary.Yaml.Escape
import SchemaSummary.Yaml.Folding
import SchemaSummary.Yaml.Style

/-! # Quoted scalars

  A text between quotes. Single quotes know one rule, that a quote in the text is written twice;
  double quotes know escapes.

  Scanning goes up to the closing quote or to the end of the line. A quoted scalar that is not
  closed on its line is folded, and its lines may stand at any column.
-/

namespace SchemaSummary.Yaml

/-- The two kinds of quotes. -/
inductive Quote where
  | single
  | double
  deriving Repr, BEq, DecidableEq

/-- The kind of a quote. -/
def Quote.ofMark? : Char → Option Quote
  | '\x27' => some .single
  | '"' => some .double
  | _ => none

/-- How the part of a quoted scalar on one line ends. -/
inductive Ending where
  /-- With the closing quote; what follows it is kept. -/
  | closed (after : List Char)
  /-- With the line. -/
  | broken
  /-- With a backslash at the end of the line. -/
  | escaped
  deriving Repr, BEq, DecidableEq

/-- The joint that a break makes of the end of a part; behind a closing quote there is none. -/
def Ending.joint? (b : Char) : Ending → Option Joint
  | .closed _ => none
  | .broken => some (.broken b)
  | .escaped => some .escaped

/-! ## Single quotes -/

/-- A character as it stands between single quotes. -/
def doubled (c : Char) : List Char := if c == '\x27' then ['\x27', '\x27'] else [c]

/-- The text up to a closing single quote, and what follows that quote if there is one. -/
def scanSingle : List Char → List Char × Option (List Char)
  | [] => ([], none)
  | '\x27' :: '\x27' :: cs =>
    let (v, after) := scanSingle cs
    ('\x27' :: v, after)
  | '\x27' :: cs => ([], some cs)
  | c :: cs =>
    let (v, after) := scanSingle cs
    (c :: v, after)

/-- Doubled quotes are read as single ones. -/
theorem scanSingle_flatMap_doubled_append (v cs : List Char) :
    scanSingle (v.flatMap doubled ++ cs) = (v ++ (scanSingle cs).1, (scanSingle cs).2) := by
  induction v with
  | nil => rfl
  | cons c v ih =>
    by_cases h : c = '\x27'
    · subst h
      simp [doubled, scanSingle, ih]
    · simp [doubled, h, scanSingle, ih]

/-! ## Double quotes -/

/-- The text up to a closing double quote or the gap at the end of the line, and which of the two
    it is. The first `skip` characters belong to an escape that has been read already. -/
def scanDouble : (skip : Nat) → List Char → Option (List Char × Ending)
  | _, [] => some ([], .broken)
  | skip + 1, _ :: cs => scanDouble skip cs
  | 0, c :: cs =>
    if c == '"' then some ([], .closed cs)
    else if c == '\\' then
      if cs.isEmpty then some ([], .escaped)
      else
        match unescape? cs with
        | none => none
        | some (d, width) => (scanDouble width cs).map fun p => (d :: p.1, p.2)
    else if atEnd (c :: cs) then some ([], .broken)
    else (scanDouble 0 cs).map fun p => (c :: p.1, p.2)

/-- Characters that have been read already are passed over. -/
theorem scanDouble_skip (pre cs : List Char) :
    scanDouble pre.length (pre ++ cs) = scanDouble 0 cs := by
  induction pre with
  | nil => rfl
  | cons c pre ih => simpa [scanDouble] using ih

/-- An escaped character is read as it was, unless it is a gap at the end of the line. -/
theorem scanDouble_escape_append (c : Char) {cs : List Char} (h : atEnd cs = false) :
    scanDouble 0 (escape c ++ cs) = (scanDouble 0 cs).map fun p => (c :: p.1, p.2) := by
  by_cases hc : needsEscape c = true
  · obtain ⟨e, he, hread⟩ := unescape?_escape hc cs
    have hne : (e ++ cs).isEmpty = false := by
      cases e <;> cases cs <;> simp_all [atEnd, dropGap]
    rw [he, List.cons_append, scanDouble, if_neg (by decide), if_pos (by decide), hne, hread]
    simp only [scanDouble_skip, Bool.false_eq_true, if_false]
  · rw [escape, if_neg hc]
    simp only [needsEscape, Bool.or_eq_true, not_or, beq_iff_eq] at hc
    rw [atEnd_eq_all] at h
    simp [scanDouble, atEnd_eq_all, hc.1.2, hc.2, h]

/-- A text between double quotes is read as it was. -/
theorem scanDouble_flatMap_escape (v after : List Char) :
    scanDouble 0 (v.flatMap escape ++ '"' :: after) = some (v, .closed after) := by
  have hquote (before : List Char) : atEnd (before ++ '"' :: after) = false := by
    simp [atEnd_eq_all, isGap]
  induction v with
  | nil => simp [scanDouble]
  | cons c v ih =>
    rw [List.flatMap_cons, List.append_assoc, scanDouble_escape_append c (hquote _), ih]
    rfl

/-! ## Reading -/

/-- The part of a quoted scalar on one line and how it ends. There is none if an escape stands for
    no character. -/
def Quote.scan (q : Quote) (cs : List Char) : Option (List Char × Ending) :=
  match q with
  | .single =>
    match scanSingle cs with
    | (v, some after) => some (v, .closed after)
    | (v, none) => some (dropGapEnd v, .broken)
  | .double => scanDouble 0 cs

/-- The parts of a quoted scalar of which the first one begins with `body`, and the lines that
    follow it. A mark between documents may not stand between quotes. -/
def readQuoted (q : Quote) (body : List Char) (stop : Option Char) (ls : List Line) :
    Option (List Part × List Line) :=
  match q.scan body with
  | none => none
  | some (v, ending) =>
    match ending, stop, ls with
    | .closed after, _, ls => if atEnd after then some ([(v, none)], ls) else none
    | ending, some b, l :: ls =>
      if l.isDocumentMark then none
      else
        (readQuoted q (dropGap l.body) l.stop ls).map fun p => ((v, ending.joint? b) :: p.1, p.2)
    | _, _, _ => none

end SchemaSummary.Yaml
