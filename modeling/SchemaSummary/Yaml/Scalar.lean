import SchemaSummary.Yaml.Literal
import SchemaSummary.Yaml.Plain
import SchemaSummary.Yaml.Quoted

/-! # Scalars

  A scalar is a text together with whether it stands between quotes or in a block; only one
  that does not can be null, a truth value or a number.

  Writing gives the pieces of a scalar: the first stands behind a key or a dash, every other on
  a line of its own. Reading starts behind a key or a dash as well and gives back the lines that
  follow the scalar.
-/

namespace SchemaSummary.Yaml

/-- A scalar. -/
structure Scalar where
  text : String
  /-- Whether quotes or a block mark it as a text. -/
  quoted : Bool
  deriving Repr, BEq, DecidableEq, Inhabited

/-! ## Writing -/

/-- The pieces of a text written in a given style. -/
def piecesIn (style : Style) (v : List Char) : List Piece :=
  match style with
  | .plain => [(v, none)]
  | .singleQuoted => pieces ('\x27' :: v.flatMap doubled ++ ['\x27'])
  | .doubleQuoted => pieces ('"' :: v.flatMap escape ++ ['"'])
  | .literal => ((LiteralHeader.ofText v).text, some '\n') :: pieces v

namespace Scalar

/-- A text as a scalar: quoted unless it can do without. -/
def ofText (v : String) : Scalar := ⟨v, styleOf v.toList != .plain⟩

/-- A number as a scalar. -/
def ofInt (n : Int) : Scalar := ⟨toString n, false⟩

/-- The style in which a scalar is written. -/
def style (s : Scalar) : Style := if s.quoted then quotedStyle s.text.toList else .plain

/-- The pieces of a scalar. -/
def pieces (s : Scalar) : List Piece := piecesIn s.style s.text.toList

end Scalar

/-! ## Reading -/

/-- The scalar whose first piece is given, and the lines that follow it. The block around it
    stands at column `parent`. -/
def readScalar (parent : Nat) (head : List Char) (stop : Option Char) (ls : List Line) :
    Option (Scalar × List Line) :=
  match head with
  | '|' :: header => do
    let header ← LiteralHeader.parse? (dropGapEnd header)
    let (v, rest) ← readLiteral parent header ls
    some (⟨String.ofList v, true⟩, rest)
  | head =>
    match head.head?.bind Quote.ofMark? with
    | some q => do
      let (parts, rest) ← readQuoted q (head.drop 1) stop ls
      some (⟨String.ofList (joinParts [] parts), true⟩, rest)
    | none =>
      if startsOtherwise head then none
      else do
        let (parts, rest) ← readPlain parent head stop ls
        some (⟨String.ofList (joinParts [] parts), false⟩, rest)

end SchemaSummary.Yaml
