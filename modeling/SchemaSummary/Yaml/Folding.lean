import SchemaSummary.Yaml.Line

/-! # Folding

  A scalar that is not a literal block may go on over several lines. Its text consists of what
  stands on these lines, without the gaps at either side of a break, and of the breaks between
  them. A run of breaks is folded:

  - an LF alone stands for a space;
  - of a longer run the first break is dropped if it is an LF;
  - all other breaks stand for themselves.
-/

namespace SchemaSummary.Yaml

/-! ## Gaps -/

/-- Whether a character is a space or a tab. -/
def isGap (c : Char) : Bool := c == ' ' || c == '\t'

/-- The text without the gap at its start. -/
def dropGap (cs : List Char) : List Char := cs.dropWhile isGap

/-- The text without the gap at its end. -/
def dropGapEnd (cs : List Char) : List Char := (dropGap cs.reverse).reverse

/-- Whether nothing but a gap is left of a line. -/
def atEnd (cs : List Char) : Bool := (dropGap cs).isEmpty

/-- A text ends where all of its characters are gaps. -/
theorem atEnd_eq_all (cs : List Char) : atEnd cs = cs.all isGap := by
  induction cs with
  | nil => rfl
  | cons c cs ih =>
    simp only [atEnd, dropGap, List.dropWhile_cons, List.all_cons] at *
    split <;> simp_all

/-! ## Joints -/

/-- What joins the text on a line to the text on the next one. -/
inductive Joint where
  /-- A break. -/
  | broken (b : Char)
  /-- A break behind a backslash, which takes it out of the text. -/
  | escaped
  deriving Repr, BEq, DecidableEq

namespace Joint

/-- The text of a joint that is not folded. -/
def text : Joint → List Char
  | .broken b => [b]
  | .escaped => []

/-- The text of joints that follow one another without any text between them. -/
def foldRun : List Joint → List Char
  | [.broken '\n'] => [' ']
  | .broken '\n' :: run => run.flatMap text
  | run => run.flatMap text

end Joint

/-- The part of a scalar on one line, and what joins it to the next part if there is one. -/
abbrev Part := List Char × Option Joint

/-- The text of a scalar that consists of the given parts and follows the joints of `run`. Joints
    behind the last part are dropped. -/
def joinParts (run : List Joint) : List Part → List Char
  | [] => []
  | ([], some (.broken b)) :: parts => joinParts (run ++ [.broken b]) parts
  | (v, joint) :: parts => Joint.foldRun run ++ v ++ joinParts joint.toList parts

/-- A scalar on one line has the text of that line. -/
theorem joinParts_singleton (v : List Char) : joinParts [] [(v, none)] = v := by
  simp [joinParts, Joint.foldRun]

end SchemaSummary.Yaml
