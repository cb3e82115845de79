import SchemaSummary.Yaml.Character
import SchemaSummary.Yaml.Number

/-! # Escapes

  Double-quoted scalars write characters that may not stand as they are with a backslash: by a
  letter if the character has one, and by its code point in hexadecimal otherwise.
-/

namespace SchemaSummary.Yaml

/-- The characters that have a letter, with it. -/
def escapeLetters : List (Char × Char) :=
  [('\x00', '0'), ('\x07', 'a'), ('\x08', 'b'), ('\t', 't'), ('\n', 'n'), ('\x0b', 'v'),
   ('\x0c', 'f'), ('\r', 'r'), ('\x1b', 'e'), ('"', '"'), ('\\', '\\'), ('\u0085', 'N'),
   ('\u00a0', '_'), ('\u2028', 'L'), ('\u2029', 'P')]

/-- Letters that are understood but not written. -/
def escapeSynonyms : List (Char × Char) := [('\t', '\t'), (' ', ' '), ('/', '/')]

/-- Whether a character has to be escaped between double quotes. -/
def needsEscape (c : Char) : Bool := !isPrintable c || isBreak c || c == '"' || c == '\\'

/-! ## Writing -/

/-- A digit of a base up to sixteen, in upper case. -/
def digitChar (d : Nat) : Char :=
  if d < 10 then Char.ofNat (0x30 + d) else Char.ofNat (0x41 + (d - 10))

/-- The last `width` hexadecimal digits of a number. -/
def hexDigits : (width n : Nat) → List Char
  | 0, _ => []
  | width + 1, n => hexDigits width (n / 16) ++ [digitChar (n % 16)]

/-- The escape of a character by its code point, in the shortest of three widths. -/
def escapeCode (c : Char) : List Char :=
  if c.toNat < 0x100 then '\\' :: 'x' :: hexDigits 2 c.toNat
  else if c.toNat < 0x10000 then '\\' :: 'u' :: hexDigits 4 c.toNat
  else '\\' :: 'U' :: hexDigits 8 c.toNat

/-- A character as it stands between double quotes. -/
def escape (c : Char) : List Char :=
  if needsEscape c then
    match escapeLetters.lookup c with
    | some letter => ['\\', letter]
    | none => escapeCode c
  else [c]

/-! ## Reading -/

/-- The number of hexadecimal digits that follow a letter. -/
def codeWidth? : Char → Option Nat
  | 'x' => some 2
  | 'u' => some 4
  | 'U' => some 8
  | _ => none

/-- The character of a code point; surrogates are none. -/
def character? (n : Nat) : Option Char :=
  if n.isValidChar then some (Char.ofNat n) else none

/-- The character that an escape stands for, and how many characters it takes after its
    backslash. -/
def unescape? : List Char → Option (Char × Nat)
  | [] => none
  | letter :: cs =>
    match codeWidth? letter with
    | some width =>
      if (cs.take width).length = width then
        ((digits? 16 (cs.take width)).bind character?).map fun c => (c, width + 1)
      else none
    | none =>
      ((escapeLetters ++ escapeSynonyms).find? fun p => p.2 == letter).map fun p => (p.1, 1)

/-! ## Reading what was written -/

/-- As many digits are written as asked for. -/
theorem length_hexDigits (width n : Nat) : (hexDigits width n).length = width := by
  induction width generalizing n with
  | zero => rfl
  | succ width ih => simp [hexDigits, ih]

/-- A digit is read as its value. -/
theorem digitValue?_digitChar {d : Nat} (h : d < 16) : digitValue? 16 (digitChar d) = some d := by
  revert h d
  decide

/-- Hexadecimal digits are read as the number that they were written for. -/
theorem digitsFrom?_hexDigits (width n : Nat) :
    digitsFrom? 16 0 (hexDigits width n) = some (n % Nat.pow 16 width) := by
  induction width generalizing n with
  | zero => simp [hexDigits, digitsFrom?, Nat.mod_one]
  | succ width ih =>
    rw [hexDigits, digitsFrom?_append, ih, Option.bind_some, digitsFrom?,
      digitValue?_digitChar (Nat.mod_lt _ (by decide))]
    simp only [digitsFrom?, Option.some.injEq]
    simp only [Nat.pow_eq]
    rw [Nat.pow_succ', Nat.mod_mul]
    omega

/-- An escaped character is read back from behind its backslash. -/
theorem unescape?_escapeCode (c : Char) (rest : List Char) :
    ∃ cs, escapeCode c = '\\' :: cs ∧ unescape? (cs ++ rest) = some (c, cs.length) := by
  have key (letter : Char) (width : Nat) (hletter : codeWidth? letter = some (width + 1))
      (hc : c.toNat < Nat.pow 16 (width + 1)) :
      unescape? (letter :: (hexDigits (width + 1) c.toNat ++ rest)) = some (c, width + 2) := by
    have hlen := length_hexDigits (width + 1) c.toNat
    have htake : (hexDigits (width + 1) c.toNat ++ rest).take (width + 1) =
        hexDigits (width + 1) c.toNat := by
      rw [List.take_append_of_le_length (by omega), List.take_of_length_le (by omega)]
    have hdigits : digits? 16 (hexDigits (width + 1) c.toNat) = some c.toNat := by
      have h := digitsFrom?_hexDigits (width + 1) c.toNat
      rw [Nat.mod_eq_of_lt hc] at h
      cases hx : hexDigits (width + 1) c.toNat with
      | nil => rw [hx] at hlen; simp at hlen
      | cons d ds => rw [hx] at h; exact h
    have hchar : character? c.toNat = some c := by
      have := c.valid
      simp_all [character?, Nat.isValidChar, UInt32.isValidChar]
    simp [unescape?, hletter, htake, hlen, hdigits, hchar]
  have hvalid : c.toNat < 0x110000 := by
    have := c.valid
    simp only [UInt32.isValidChar, Nat.isValidChar] at this
    simp only [Char.toNat]
    omega
  have hlong : c.toNat < Nat.pow 16 8 := Nat.lt_trans hvalid (by decide)
  rw [escapeCode]
  split
  · exact ⟨_, rfl, by simpa [length_hexDigits] using key 'x' 1 rfl (by omega)⟩
  · split
    · exact ⟨_, rfl, by simpa [length_hexDigits] using key 'u' 3 rfl (by omega)⟩
    · exact ⟨_, rfl, by simpa [length_hexDigits] using key 'U' 7 rfl hlong⟩

/-- The letters are no widths, and each of them stands for one character. -/
theorem unescape?_letter {c letter : Char} (h : escapeLetters.lookup c = some letter)
    (rest : List Char) : unescape? (letter :: rest) = some (c, 1) := by
  have hmem : (c, letter) ∈ escapeLetters := by
    obtain ⟨before, after, heq, -⟩ := List.lookup_eq_some_iff.mp h
    simp [heq]
  have hall : ∀ p ∈ escapeLetters, codeWidth? p.2 = none ∧
      ((escapeLetters ++ escapeSynonyms).find? fun q => q.2 == p.2) = some p := by decide
  obtain ⟨hwidth, hfind⟩ := hall _ hmem
  simp only [unescape?, hwidth, hfind, Option.map_some]

/-- A character that needs an escape has one, which is read back. -/
theorem unescape?_escape {c : Char} (h : needsEscape c = true) (rest : List Char) :
    ∃ cs, escape c = '\\' :: cs ∧ unescape? (cs ++ rest) = some (c, cs.length) := by
  rw [escape, if_pos h]
  cases hletter : escapeLetters.lookup c with
  | none => exact unescape?_escapeCode c rest
  | some letter => exact ⟨[letter], rfl, unescape?_letter hletter rest⟩

end SchemaSummary.Yaml
