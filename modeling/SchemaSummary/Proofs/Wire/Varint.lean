import Mathlib.Algebra.Group.Nat.Defs
import SchemaSummary.Wire.Reader
import SchemaSummary.Wire.Writer

/-! # Varints

  The ways of writing a number in base 128, and that each of them is read as that number.

  The writer produces the shortest form. A form may also end in digits that are zero, as long as
  it takes no more than ten bytes.
-/

namespace SchemaSummary.Wire

/-! ## Reading from the front -/

/-- Whether a reader takes a value from the front of any bytes that begin with `bs`, and leaves
    what follows them. -/
def Reads {α : Type} (p : Reader α) (bs : List UInt8) (a : α) : Prop :=
  ∀ rest, p (.ofBytes (bs ++ rest)) = .ok (a, .ofBytes rest)

theorem ok_bind {α β : Type} (a : α) (f : α → Except DecodeError β) :
    (Except.ok a >>= f) = f a := rfl

/-! ## Forms of a number -/

/-- The digits of a number in base 128, low digits first; the high bit of a byte says that more
    digits follow. -/
inductive Digits : List UInt8 → Nat → Prop
  | last {b : UInt8} (h : b.toNat < 128) : Digits [b] b.toNat
  | more {b : UInt8} {bs : List UInt8} {high : Nat} (h : 128 ≤ b.toNat) (hrest : Digits bs high) :
      Digits (b :: bs) (b.toNat - 128 + 128 * high)

/-- The ways of writing a number of sixty-four bits as a varint. -/
structure VarintForm (bs : List UInt8) (n : Nat) : Prop where
  digits : Digits bs n
  length_le : bs.length ≤ 10
  lt : n < UInt64.size

theorem Digits.ne_nil {bs : List UInt8} {n : Nat} (h : Digits bs n) : bs ≠ [] := by
  cases h <;> simp

theorem toNat_toUInt8 {n : Nat} (h : n < 256) : n.toUInt8.toNat = n := by
  simp [Nat.mod_eq_of_lt h]

theorem digits_varintBytes (n : Nat) : Digits (varintBytes n) n := by
  fun_induction varintBytes n with
  | case1 n hlt =>
    have hbyte := toNat_toUInt8 (by omega : n < 256)
    have hdigits : Digits [n.toUInt8] n.toUInt8.toNat := .last (by omega)
    rwa [hbyte] at hdigits
  | case2 n hge ih =>
    have hbyte := toNat_toUInt8 (by omega : n % 128 + 128 < 256)
    have hdigits := Digits.more (b := (n % 128 + 128).toUInt8) (by omega) ih
    rw [hbyte] at hdigits
    have hvalue : n % 128 + 128 - 128 + 128 * (n / 128) = n := by omega
    rwa [hvalue] at hdigits

theorem length_varintBytes_le {n k : Nat} (h : n < 128 ^ (k + 1)) :
    (varintBytes n).length ≤ k + 1 := by
  induction k generalizing n with
  | zero =>
    rw [varintBytes, if_pos (by omega)]
    exact Nat.le_refl 1
  | succ k ih =>
    rw [varintBytes]
    split
    · simp
    · have hdiv : n / 128 < 128 ^ (k + 1) := by
        rw [Nat.pow_succ] at h
        omega
      have := ih hdiv
      simp only [List.length_cons]
      omega

/-- The writer produces one of the forms of a number. -/
theorem varintForm_varintBytes {n : Nat} (h : n < UInt64.size) : VarintForm (varintBytes n) n where
  digits := digits_varintBytes n
  length_le := length_varintBytes_le (k := 9) (Nat.lt_trans h (by decide))
  lt := h

/-! ## Reading a number -/

/-- Digits are read as their number, if it has no bit above those that may be set in the last
    byte that is allowed. -/
theorem reads_digits {bs : List UInt8} {n : Nat} (h : Digits bs n) :
    ∀ {count : Nat}, bs.length ≤ count + 1 → n < 2 * 128 ^ count →
      Reads (readDigits (count + 1)) bs n := by
  induction h with
  | @last b hb =>
    intro count _ hn rest
    have hfits : ¬ (count = 0 ∧ 2 ≤ b.toNat) := by
      intro hlong
      rw [hlong.1] at hn
      omega
    rw [readDigits, List.singleton_append, Input.next?_ofBytes_cons]
    simp only [if_pos hb, if_neg hfits]
  | @more b bs high hb hrest ih =>
    intro count hlength hn rest
    rw [List.length_cons] at hlength
    have hpos := List.length_pos_iff.mpr hrest.ne_nil
    obtain ⟨count, rfl⟩ : ∃ c, count = c + 1 := ⟨count - 1, by omega⟩
    have hhigh : high < 2 * 128 ^ count := by
      rw [Nat.pow_succ] at hn
      omega
    have hread := ih (by omega) hhigh rest
    rw [readDigits, List.cons_append, Input.next?_ofBytes_cons]
    simp only [hread, if_neg (by omega : ¬ b.toNat < 128)]

theorem reads_varint {bs : List UInt8} {n : Nat} (h : VarintForm bs n) : Reads readVarint bs n := by
  have hlt : n < 2 * 128 ^ 9 := Nat.lt_of_lt_of_eq h.lt (by decide)
  exact reads_digits h.digits h.length_le hlt

end SchemaSummary.Wire
