import SchemaSummary.Yaml.Folding
import SchemaSummary.Yaml.Style

/-! # Plain scalars

  A text without any marks around it. A plain scalar goes on over all lines that are indented
  deeper than the block around it, and is folded.
-/

namespace SchemaSummary.Yaml

namespace Line

/-- Whether a tab stands where a line inside the block at column `parent` is to be indented. -/
def hasTabIndent (parent : Nat) (l : Line) : Bool :=
  decide (l.indent ≤ parent) && l.body.head? == some '\t'

/-- Whether a plain scalar in the block at column `parent` goes on in a line. -/
def continuesPlain (parent : Nat) (l : Line) : Bool := l.isBlank || decide (parent < l.indent)

end Line

/-- The parts of a plain scalar of which the first one is `body`, and the lines that follow it. -/
def readPlain (parent : Nat) (body : List Char) (stop : Option Char) (ls : List Line) :
    Option (List Part × List Line) :=
  let part : Part := (dropGapEnd body, some (.broken (stop.getD '\n')))
  if endsPlain part.1 then none
  else
    match ls with
    | [] => some ([part], [])
    | l :: ls =>
      if l.hasTabIndent parent then none
      else if l.continuesPlain parent then
        (readPlain parent (dropGap l.body) l.stop ls).map fun p => (part :: p.1, p.2)
      else some ([part], l :: ls)

end SchemaSummary.Yaml
