import SchemaSummary.Yaml.Node

/-! # Reading nodes

  `Node.parse?` reads the tree in a YAML text. It knows block style only, and of flow style the
  empty list. Where a block begins and ends is told by indentation alone:

  - a list or a record consists of the lines at its column and of all that is indented deeper;
  - a list in a record may also stand at the column of that record;
  - a key or a dash with nothing behind it and no block below it stands for null.

  A tab is no indentation, so no block begins with one. The text holds one document, and the marks
  that open and close it may be left out.
-/

namespace SchemaSummary.Yaml

/-! ## Lines -/

namespace Line

/-- A line without the byte order mark that it may begin with, which counts as a space. -/
def dropOrderMark (l : Line) : Line :=
  match l with
  | ⟨0, '\uFEFF' :: cs, stop⟩ =>
    ⟨1 + (cs.takeWhile (· == ' ')).length, cs.dropWhile (· == ' '), stop⟩
  | l => l

/-- Whether a line begins with a dash, and so an item of a list. -/
def isItem (l : Line) : Bool :=
  match l.body with
  | '-' :: cs => endsToken cs
  | _ => false

/-- An item of a list without its dash, which counts as a space. -/
def undashed (l : Line) : Line :=
  let gap := (l.body.drop 1).takeWhile (· == ' ')
  ⟨l.indent + 1 + gap.length, l.body.drop (1 + gap.length), l.stop⟩

/-- Whether a line is the header of a literal block. -/
def isLiteral (l : Line) : Bool := l.body.head? == some '|'

end Line

/-- The lines from the first one that is not blank, which loses its byte order mark. -/
def dropBlank : List Line → List Line
  | [] => []
  | l :: ls => if l.dropOrderMark.isBlank then dropBlank ls else l.dropOrderMark :: ls

/-! ## Keys -/

/-- How many bytes behind the beginning of a key its colon may stand. -/
def keyLimit : Nat := 1024

/-- What stands behind the colon that follows a key, if one does. -/
def behindColon? (cs : List Char) : Option (List Char) :=
  match dropGap cs with
  | ':' :: head => if endsToken head then some head else none
  | _ => none

/-- The plain key that a text begins with, and what stands behind its colon. -/
def plainKey? (cs : List Char) : Option (Key × List Char) :=
  if startsOtherwise cs then none
  else
    match splitKey? cs with
    | some (key, head) =>
      if key.isEmpty || hasComment key then none
      else some (.text (String.ofList (dropGapEnd key)), head)
    | none => none

/-- The key of which `cs` stands behind the opening quote, and what stands behind its colon. -/
def quotedKey? (q : Quote) (cs : List Char) : Option (Key × List Char) :=
  match q.scan cs with
  | some (key, .closed after) =>
    (behindColon? after).map fun head => (.text (String.ofList key), head)
  | _ => none

/-- The empty list as a key, of which `cs` stands behind the opening bracket, and what stands
    behind its colon. -/
def listKey? (cs : List Char) : Option (Key × List Char) :=
  match dropGap cs with
  | ']' :: after => (behindColon? after).map fun head => (.emptyList, head)
  | _ => none

/-- The key of an entry and what stands behind its colon. -/
def Line.keyed? (l : Line) : Option (Key × List Char) :=
  if l.isDocumentMark then none
  else
    let found :=
      match l.body with
      | '[' :: cs => listKey? cs
      | body =>
        match body.head?.bind Quote.ofMark? with
        | some q => quotedKey? q (body.drop 1)
        | none => plainKey? body
    found.filter fun p => decide (utf8Length l.body ≤ keyLimit + 1 + utf8Length p.2)

/-! ## Blocks -/

/-- The scalar of null: nothing at all. -/
def nullNode : Node := .scalar ⟨"", false⟩

/-- The lines that follow an empty list of which `cs` stands behind the opening bracket. The
    closing bracket may stand on a later line, at any column. -/
def readEmptyList (cs : List Char) (ls : List Line) : Option (List Line) :=
  match dropGap cs, ls with
  | ']' :: after, ls => if atEnd after then some ls else none
  | [], l :: ls => readEmptyList l.dropOrderMark.body ls
  | _, _ => none

/-- The scalar or the empty list whose first piece is given, and the lines that follow it. -/
def readFlat (parent : Nat) (head : List Char) (stop : Option Char) (ls : List Line) :
    Option (Node × List Line) :=
  match head with
  | '[' :: cs => (readEmptyList cs ls).map fun rest => (.list [], rest)
  | head => (readScalar parent head stop ls).map fun p => (.scalar p.1, p.2)

/-- Whether lines begin with a block that belongs to a key or a dash at `column`. A literal block
    need not be indented, nor need a list below a key. -/
def hasBlock (column : Nat) (below : Bool) : List Line → Bool
  | [] => false
  | l :: _ =>
    decide (column < l.indent) || (l.indent == column && (l.isLiteral || (below && l.isItem)))

mutual

/-- The node that the lines begin with, and the lines that follow it. The block around it stands
    at column `parent`. -/
def readBlock : (fuel parent : Nat) → List Line → Option (Node × List Line)
  | 0, _, _ => none
  | _ + 1, _, [] => none
  | fuel + 1, parent, l :: ls =>
    if l.isItem then (readItems fuel l.indent (l :: ls)).map fun p => (.list p.1, p.2)
    else if l.keyed?.isSome then
      (readEntries fuel l.indent (l :: ls)).map fun p => (.record p.1, p.2)
    else readFlat parent l.body l.stop ls

/-- The items of a list at `column`, and the lines that follow it. -/
def readItems : (fuel column : Nat) → List Line → Option (List Node × List Line)
  | 0, _, _ => none
  | fuel + 1, column, ls =>
    match dropBlank ls with
    | [] => some ([], [])
    | l :: rest =>
      -- A line at any other column ends the list; it belongs to a block further out, or nowhere.
      if l.indent = column ∧ l.isItem = true then do
        let (item, rest) ←
          if l.undashed.isBlank then
            if hasBlock column false (dropBlank rest) then readBlock fuel column (dropBlank rest)
            else some (nullNode, rest)
          else readBlock fuel column (l.undashed :: rest)
        let (items, rest) ← readItems fuel column rest
        some (item :: items, rest)
      else some ([], l :: rest)

/-- The entries of a record at `column`, and the lines that follow it. -/
def readEntries : (fuel column : Nat) → List Line → Option (List (Key × Node) × List Line)
  | 0, _, _ => none
  | fuel + 1, column, ls =>
    match dropBlank ls with
    | [] => some ([], [])
    | l :: rest =>
      if l.indent = column then
        match l.keyed? with
        | none => some ([], l :: rest)
        | some (key, head) => do
          -- The value is below the key if nothing follows the colon.
          let (value, rest) ←
            if atEnd head then
              if hasBlock column true (dropBlank rest) then readBlock fuel column (dropBlank rest)
              else some (nullNode, rest)
            else readFlat column (dropGap head) l.stop rest
          let (entries, rest) ← readEntries fuel column rest
          some ((key, value) :: entries, rest)
      else some ([], l :: rest)

end

/-! ## Texts -/

/-- Breaks before line and paragraph separators are all the same: CR, LF, both together and next
    line are read as LF. -/
def unifyBreaks : List Char → List Char
  | [] => []
  | '\r' :: '\n' :: cs => '\n' :: unifyBreaks cs
  | c :: cs => (if c == '\r' || c == '\u0085' then '\n' else c) :: unifyBreaks cs

/-- The characters on lines, their ends included. -/
def weight (ls : List Line) : Nat := ls.foldr (fun l n => l.body.length + 1 + n) 0

/-- A bound on the steps of reading: each of them takes a line, a dash or a key, or it is the
    first of a block. -/
def fuelFor (ls : List Line) : Nat := 2 * weight ls + 2

/-- The lines behind the mark that may open a document. -/
def dropOpening (ls : List Line) : List Line :=
  match dropBlank ls with
  | [] => []
  | l :: rest =>
    if l.isDocumentMark && l.body.head? == some '-' && atEnd (l.body.drop 3) then dropBlank rest
    else l :: rest

/-- Whether a line may stand behind a document: it is blank or the mark that closes a document. -/
def Line.isClosing (l : Line) : Bool :=
  l.dropOrderMark.isBlank || (l.isDocumentMark && l.body.head? == some '.' && atEnd (l.body.drop 3))

/-- The tree in a text. -/
def Node.parse? (text : String) : Option Node :=
  if text.toList.all isReadable then
    let ls := dropOpening (lines (unifyBreaks text.toList))
    match readBlock (fuelFor ls) 0 ls with
    | some (node, rest) => if rest.all Line.isClosing then some node else none
    | none => none
  else none

end SchemaSummary.Yaml
