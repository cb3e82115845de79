import SchemaSummary.Yaml.Scalar

/-! # Nodes

  A YAML text in block style is a tree: scalars, lists and records. `Node.render` writes a tree
  in the one layout that all generated files have:

  - an entry of a record is a key, a colon and a value, an item of a list a dash and a value;
  - a record within a record or a list stands two columns to the right of it;
  - a list within a record stands at the same column, the empty list behind its key as `[]`;
  - a scalar that takes several lines goes on two columns to the right of its record or list.
-/

namespace SchemaSummary.Yaml

/-- The key of an entry. -/
inductive Key where
  /-- A text, whatever style it has. -/
  | text (key : String)
  /-- The empty list, which may stand in the place of a text. -/
  | emptyList
  deriving Repr, DecidableEq, Inhabited

instance : Coe String Key := ⟨.text⟩

namespace Key

/-- A key as it is written. -/
def toList : Key → List Char
  | .text key => key.toList
  | .emptyList => ['[', ']']

/-- Whether a key is a text. -/
def isText : Key → Bool
  | .text _ => true
  | .emptyList => false

end Key

/-- A tree of scalars, lists and records; the entries of a record are kept in order. -/
inductive Node where
  | scalar (s : Scalar)
  | list (items : List Node)
  | record (entries : List (Key × Node))
  deriving Repr, BEq, Inhabited

namespace Node

/-- A text as a node. -/
def ofText (v : String) : Node := .scalar (.ofText v)

/-- A number as a node. -/
def ofInt (n : Int) : Node := .scalar (.ofInt n)

/-! ## Layout -/

/-- How far a block stands to the right of the block around it. -/
def indentation : Nat := 2

/-- The lines of a scalar of which the first begins at `column` with `start`, and all others at
    `next`. -/
def scalarLines (column : Nat) (start : List Char) (next : Nat) : List Piece → List Line
  | [] => [.ofBody column start]
  | p :: ps => ⟨column, start ++ p.1, some (p.2.getD '\n')⟩ :: ps.map (Line.ofLaterPiece next)

/-- Lines of which the first one begins with a dash at `column`. -/
def dashed (column : Nat) : List Line → List Line
  | [] => [.ofBody column ['-']]
  | l :: ls =>
    { l with
      indent := column
      body := '-' :: (List.replicate (l.indent - column - 1) ' ' ++ l.body) } :: ls

mutual

/-- The lines of a node that stands by itself at `column`. -/
def blockLines (column : Nat) : Node → List Line
  | .scalar s => scalarLines column [] column s.pieces
  | .list [] => [.ofBody column ['[', ']']]
  | .list (item :: items) =>
    dashed column (blockLines (column + indentation) item) ++ itemLines column items
  | .record entries => entryLines column entries

/-- The lines of the items of a list at `column`. -/
def itemLines (column : Nat) : List Node → List Line
  | [] => []
  | item :: items =>
    dashed column (blockLines (column + indentation) item) ++ itemLines column items

/-- The lines of the entries of a record at `column`. -/
def entryLines (column : Nat) : List (Key × Node) → List Line
  | [] => []
  | (key, value) :: entries =>
    valueLines column (key.toList ++ [':']) value ++ entryLines column entries

/-- The lines of a value behind its key. -/
def valueLines (column : Nat) (key : List Char) : Node → List Line
  | .scalar s => scalarLines column (key ++ [' ']) (column + indentation) s.pieces
  | .list [] => [.ofBody column (key ++ [' ', '[', ']'])]
  | .list (item :: items) =>
    .ofBody column key :: dashed column (blockLines (column + indentation) item) ++
      itemLines column items
  | .record entries => .ofBody column key :: entryLines (column + indentation) entries

end

/-- The text of a node. -/
def render (node : Node) : String := String.ofList (unlines (node.blockLines 0))

end Node

end SchemaSummary.Yaml
