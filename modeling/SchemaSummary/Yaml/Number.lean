/-! # Numbers in YAML

  Which plain texts are integers or floating-point numbers.

  - An integer is decimal, or hexadecimal, octal or binary after `0x`, `0o` or `0b`, with one
    sign at most; it has to fit 128 bits, unsigned or, after a minus sign, signed.
  - A decimal integer has no leading zero. Digits with one are no number at all.
  - A floating-point number is decimal, with a point, an exponent or both, and must not be so
    large that double precision rounds it to infinity; infinity and NaN have words of their own.
-/

namespace SchemaSummary.Yaml

/-! ## Digits -/

/-- The value of a digit in bases up to sixteen. -/
def digitValue? (base : Nat) (c : Char) : Option Nat :=
  let n := c.toNat
  let value :=
    if 0x30 ≤ n ∧ n ≤ 0x39 then some (n - 0x30)
    else if 0x61 ≤ n ∧ n ≤ 0x66 then some (n - 0x61 + 10)
    else if 0x41 ≤ n ∧ n ≤ 0x46 then some (n - 0x41 + 10)
    else none
  value.filter (· < base)

/-- The value of digits that follow a number with the value `high`. -/
def digitsFrom? (base : Nat) (high : Nat) : List Char → Option Nat
  | [] => some high
  | c :: cs =>
    match digitValue? base c with
    | none => none
    | some d => digitsFrom? base (base * high + d) cs

/-- Digits are read from left to right. -/
theorem digitsFrom?_append (base high : Nat) (cs ds : List Char) :
    digitsFrom? base high (cs ++ ds) =
      (digitsFrom? base high cs).bind fun n => digitsFrom? base n ds := by
  induction cs generalizing high with
  | nil => rfl
  | cons c cs ih =>
    rw [List.cons_append, digitsFrom?, digitsFrom?]
    cases digitValue? base c with
    | none => rfl
    | some d => exact ih _

/-- The value of one or more digits. -/
def digits? (base : Nat) : List Char → Option Nat
  | [] => none
  | cs => digitsFrom? base 0 cs

/-- Whether a character is a sign. -/
def isSign (c : Char) : Bool := c == '+' || c == '-'

/-- The text without one leading sign. -/
def dropSign : List Char → List Char
  | c :: cs => if isSign c then cs else c :: cs
  | [] => []

/-- Two or more digits of which the first is zero, possibly after a sign. -/
def isPadded (v : List Char) : Bool :=
  match dropSign v with
  | '0' :: c :: cs => (c :: cs).all Char.isDigit
  | _ => false

/-! ## Integers -/

/-- The value of digits without a sign, in the base that they announce. -/
def magnitude? : List Char → Option Nat
  | '0' :: 'x' :: cs => digits? 16 cs
  | '0' :: 'o' :: cs => digits? 8 cs
  | '0' :: 'b' :: cs => digits? 2 cs
  | cs => if isPadded cs then none else digits? 10 cs

/-- The value of an integer. -/
def integer? : List Char → Option Int
  | '-' :: cs => ((magnitude? cs).filter (· ≤ 1 <<< 127)).map fun n => -(n : Int)
  | '+' :: cs => ((magnitude? cs).filter (· < 1 <<< 128)).map fun n => (n : Int)
  | cs => ((magnitude? cs).filter (· < 1 <<< 128)).map fun n => (n : Int)

/-! ## Floating-point numbers -/

/-- A decimal number: the value is `mantissa · 10 ^ exponent`. -/
structure Decimal where
  mantissa : Nat
  exponent : Int
  deriving Repr, DecidableEq

/-- The number of decimal digits of a positive number. -/
def decimalLength (n : Nat) : Nat := (Nat.toDigits 10 n).length

/-- The least number that double precision rounds to infinity: half a unit above the largest
    finite number. -/
def overflowBound : Nat := 1 <<< 1024 - 1 <<< 970

/-- Whether a decimal number is below `overflowBound`. Numbers that are not within two digits of
    it are told by their length, so that no power of ten is larger than the text warrants. -/
def Decimal.isFinite (d : Decimal) : Bool :=
  let length : Int := decimalLength d.mantissa + d.exponent
  if d.mantissa = 0 ∨ length ≤ 308 then true
  else if 310 < length then false
  else if 0 ≤ d.exponent then d.mantissa * Nat.pow 10 d.exponent.toNat < overflowBound
  else d.mantissa < overflowBound * Nat.pow 10 (-d.exponent).toNat

/-- The exponent that may follow a mantissa: nothing, or a marked integer. -/
def exponent? : List Char → Option Int
  | [] => some 0
  | c :: cs =>
    if c == 'e' || c == 'E' then
      match cs with
      | '-' :: ds => (digits? 10 ds).map fun n => -(n : Int)
      | '+' :: ds => (digits? 10 ds).map fun n => (n : Int)
      | ds => (digits? 10 ds).map fun n => (n : Int)
    else none

/-- An unsigned decimal number with at least one digit before or after the point. -/
def decimal? (cs : List Char) : Option Decimal :=
  let whole := cs.takeWhile Char.isDigit
  let rest := cs.dropWhile Char.isDigit
  let (part, rest) :=
    match rest with
    | '.' :: more => (more.takeWhile Char.isDigit, more.dropWhile Char.isDigit)
    | _ => ([], rest)
  match digits? 10 (whole ++ part), exponent? rest with
  | some mantissa, some e => some ⟨mantissa, e - part.length⟩
  | _, _ => none

/-- The words for infinity, without a sign. -/
def infinityWords : List String := [".inf", ".Inf", ".INF"]

/-- The words for a result that is not a number. -/
def nanWords : List String := [".nan", ".NaN", ".NAN"]

/-- Whether a text is a floating-point number. -/
def isFloat (v : List Char) : Bool :=
  nanWords.contains (String.ofList v) ||
    infinityWords.contains (String.ofList (dropSign v)) ||
    (decimal? (dropSign v)).any Decimal.isFinite

end SchemaSummary.Yaml
