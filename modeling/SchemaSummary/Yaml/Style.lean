import SchemaSummary.Yaml.Line
import SchemaSummary.Yaml.Number

/-! # Scalar styles

  How a text is written as a scalar. The style that suits its contents is chosen first:

  - literal if it contains LF,
  - single-quoted if it would be read as something other than a text,
  - plain otherwise.

  A style that cannot carry the text gives way to a stronger one: plain to single-quoted,
  single-quoted and literal to double-quoted, which carries everything.
-/

namespace SchemaSummary.Yaml

/-- The ways of writing a scalar. -/
inductive Style where
  | plain
  | singleQuoted
  | doubleQuoted
  | literal
  deriving Repr, BEq, DecidableEq, Inhabited

/-! ## What a plain scalar is read as -/

/-- The words for null; the empty text is one as well. -/
def nullWords : List String := ["", "null", "Null", "NULL", "~"]

/-- The words for truth values. -/
def booleanWords : List String := ["true", "True", "TRUE", "false", "False", "FALSE"]

/-- Whether a plain scalar is read as a text rather than as null, a truth value or a number.
    Digits after a zero are a text to some readers only, so they do not count as one here. -/
def readsAsText (v : List Char) : Bool :=
  !(nullWords.contains (String.ofList v) || booleanWords.contains (String.ofList v) ||
    (integer? v).isSome || isFloat v || isPadded v)

/-! ## What each style can carry -/

/-- Characters that begin something other than a plain scalar: comments, flow collections,
    anchors, aliases, tags, block scalars, quoted scalars, directives and the reserved ones. No
    plain scalar begins with a separator either. -/
def indicators : List Char :=
  ['#', ',', '[', ']', '\x7b', '\x7d', '&', '*', '!', '|', '>', '\x27', '"', '%', '@', '\x60']

/-- What stands before and after the first colon that ends a token, which makes a key of the
    text before it. -/
def splitKey? : List Char → Option (List Char × List Char)
  | [] => none
  | c :: cs =>
    if c == ':' && endsToken cs then some ([], cs)
    else (splitKey? cs).map fun p => (c :: p.1, p.2)

/-- Whether a text begins with something other than a plain scalar. -/
def startsOtherwise : List Char → Bool
  | [] => false
  | c :: cs =>
    isSeparator c || indicators.contains c || ((c == '?' || c == '-') && endsToken cs)

/-- Whether a comment begins in a text, which takes a separator in front of it. -/
def hasComment (v : List Char) : Bool := adjacent isSeparator (· == '#') (' ' :: v)

/-- Whether a text contains something that ends a plain scalar. -/
def endsPlain (v : List Char) : Bool := (splitKey? v).isSome || hasComment v

/-- Whether a text contains something other than one plain scalar. -/
def hasStructure (v : List Char) : Bool := startsOtherwise v || endsPlain v

/-- Whether a character is a space or a break. -/
def isSpaceOrBreak (c : Char) : Bool := c == ' ' || isBreak c

/-- Whether a text can be written plain. -/
def plainCarries (v : List Char) : Bool :=
  !(v.head?.any isSpaceOrBreak || v.getLast?.any isSpaceOrBreak || v.any isBreak ||
    hasStructure v || marksDocument v) && v.all isPrintable

/-- Whether a text can be written in single quotes: spaces next to breaks would be lost. -/
def singleQuotedCarries (v : List Char) : Bool :=
  !(adjacent isBreak (· == ' ') v || adjacent (· == ' ') isBreak v) && v.all isPrintable

/-- Whether a text can be written as a literal block. -/
def literalCarries (v : List Char) : Bool :=
  !(v.getLast?.any (· == ' ') || adjacent (· == ' ') isBreak v) && v.all isPrintable

/-! ## The choice -/

/-- The style that suits the contents of a text. -/
def preferredStyle (v : List Char) : Style :=
  if v.contains '\n' then .literal
  else if readsAsText v then .plain
  else .singleQuoted

/-- The style of a text between quotes or in a block. -/
def quotedStyle (v : List Char) : Style :=
  if v.contains '\n' then (if literalCarries v then .literal else .doubleQuoted)
  else if singleQuotedCarries v then .singleQuoted
  else .doubleQuoted

/-- The style in which a text is written. -/
def styleOf (v : List Char) : Style :=
  if preferredStyle v = .plain ∧ plainCarries v = true then .plain else quotedStyle v

end SchemaSummary.Yaml
