import SchemaSummary.Yaml.Line

/-! # Literal blocks

  A literal block writes a text line by line below a header. The header says two things that
  the lines cannot:

  - how far the block is indented, where the text begins with a space or a break;
  - what becomes of the breaks at the end. Of several none, one or all are kept.
-/

namespace SchemaSummary.Yaml

/-! ## The breaks at the end -/

/-- How many of the breaks at the end of a literal block belong to the text. -/
inductive Chomp where
  /-- None of them. -/
  | strip
  /-- The first one, unless the block holds nothing else. -/
  | clip
  /-- All of them. -/
  | keep
  deriving Repr, BEq, DecidableEq, Inhabited

namespace Chomp

/-- The mark in the header. -/
def mark : Chomp → List Char
  | .strip => ['-']
  | .clip => []
  | .keep => ['+']

/-- The treatment that a mark asks for. -/
def ofMark? : Char → Option Chomp
  | '-' => some .strip
  | '+' => some .keep
  | _ => none

/-- The treatment that leaves a text as it is. -/
def ofText (v : List Char) : Chomp :=
  match v.reverse with
  | [] => .strip
  | b :: rest =>
    if isBreak b then (if rest.head?.all isBreak then .keep else .clip) else .strip

/-- The text without the breaks at its end. -/
def stripped (cs : List Char) : List Char := (cs.reverse.dropWhile isBreak).reverse

/-- The text that a block with these contents stands for. -/
def apply (chomp : Chomp) (cs : List Char) : List Char :=
  match chomp with
  | .strip => stripped cs
  | .clip =>
    let content := stripped cs
    if content.isEmpty then [] else cs.take (content.length + 1)
  | .keep => cs

end Chomp

/-! ## The header -/

/-- How far a literal block is indented against the block around it, if that is said, and what
    becomes of the breaks at its end. -/
structure LiteralHeader where
  indent : Option Nat
  chomp : Chomp
  deriving Repr, BEq, DecidableEq, Inhabited

namespace LiteralHeader

/-- How far literal blocks are indented. -/
def depth : Nat := 2

/-- The header that suits a text. -/
def ofText (v : List Char) : LiteralHeader where
  indent := if v.head?.any fun c => c == ' ' || isBreak c then some depth else none
  chomp := Chomp.ofText v

/-- The text of a header. -/
def text (h : LiteralHeader) : List Char :=
  '|' :: ((h.indent.map (Nat.toDigits 10)).getD [] ++ h.chomp.mark)

/-- The depth that a digit stands for; zero is none. -/
def depth? (c : Char) : Option Nat :=
  if '1' ≤ c ∧ c ≤ '9' then some (c.toNat - '0'.toNat) else none

/-- The header in a text that follows the bar; depth and mark may come in either order. -/
def parse? : List Char → Option LiteralHeader
  | [] => some ⟨none, .clip⟩
  | [c] =>
    match Chomp.ofMark? c with
    | some chomp => some ⟨none, chomp⟩
    | none => (depth? c).map fun n => ⟨some n, .clip⟩
  | [c, d] =>
    match Chomp.ofMark? c, Chomp.ofMark? d with
    | some chomp, none => (depth? d).map fun n => ⟨some n, chomp⟩
    | none, some chomp => (depth? c).map fun n => ⟨some n, chomp⟩
    | _, _ => none
  | _ => none

end LiteralHeader

/-! ## The contents -/

/-- The column at which the lines of a literal block begin. It is told by the first line that is
    not blank if the header does not say it, and lies to the right of the block around. -/
def literalColumn (parent : Nat) (header : LiteralHeader) (ls : List Line) : Nat :=
  match header.indent with
  | some n => parent + n
  | none =>
    ((ls.takeWhile Line.isBlank ++ (ls.dropWhile Line.isBlank).take 1).map Line.indent).foldl
      max (parent + 1)

/-- Whether a line belongs to a literal block that begins at `column`. -/
def inLiteral (column : Nat) (l : Line) : Bool := l.isBlank || decide (column ≤ l.indent)

/-- Whether the first line that is not blank begins with a tab. It tells no column then, because
    a tab is no indentation. -/
def beginsWithTab (ls : List Line) : Bool :=
  (ls.dropWhile Line.isBlank).head?.any fun l => l.body.head? == some '\t'

/-- The text of a literal block, and the lines that follow it. -/
def readLiteral (parent : Nat) (header : LiteralHeader) (ls : List Line) :
    Option (List Char × List Line) :=
  if header.indent.isNone && beginsWithTab ls then none
  else
    let column := literalColumn parent header ls
    -- Blank lines may be indented less than the block and are then empty.
    let content := (ls.takeWhile (inLiteral column)).flatMap fun l =>
      Line.text { l with indent := l.indent - column }
    some (header.chomp.apply content, ls.dropWhile (inLiteral column))

end SchemaSummary.Yaml
