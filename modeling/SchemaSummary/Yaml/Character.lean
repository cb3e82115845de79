/-! # Characters of YAML

  Which characters end a line, which may be written as they are, and which separate tokens.
-/

namespace SchemaSummary.Yaml

/-- The characters that end a line: LF, CR, next line, line separator, paragraph separator. -/
def isBreak (c : Char) : Bool :=
  c == '\n' || c == '\r' || c == '\u0085' || c == '\u2028' || c == '\u2029'

/-- Spaces, tabs, breaks and NUL; the end of a text counts as one of them as well. -/
def isSeparator (c : Char) : Bool := c == ' ' || c == '\t' || isBreak c || c == '\x00'

/-- Whether a token may end in front of `rest`. -/
def endsToken : List Char → Bool
  | [] => true
  | c :: _ => isSeparator c

/-- Characters that may be written without an escape. The byte order mark and the two
    noncharacters at the end of the basic plane may not, and of the controls only LF. -/
def isPrintable (c : Char) : Bool :=
  let n := c.toNat
  n == 0x0A || (0x20 ≤ n && n ≤ 0x7E) || (0xA0 ≤ n && n ≤ 0xD7FF) ||
    (0xE000 ≤ n && n ≤ 0xFFFD && n != 0xFEFF) || 0x10000 ≤ n

/-- Characters that a text may contain at all. -/
def isReadable (c : Char) : Bool :=
  isPrintable c || c == '\t' || c == '\r' || c == '\u0085' || c == '\uFEFF'

/-- How many bytes a text takes in UTF-8. -/
def utf8Length (cs : List Char) : Nat := cs.foldr (fun c n => c.utf8Size + n) 0

/-- Whether some character with the first property stands before one with the second. -/
def adjacent (p q : Char → Bool) : List Char → Bool
  | a :: b :: rest => (p a && q b) || adjacent p q (b :: rest)
  | _ => false

end SchemaSummary.Yaml
