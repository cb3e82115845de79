import SchemaSummary.Yaml.Number

/-! # Reading numbers

  A number in decimal digits, with a minus sign if it is negative, is read as it was.
-/

namespace SchemaSummary.Yaml

/-! ## Digits -/

theorem digitValue?_of_isDigit {c : Char} (h : c.isDigit = true) :
    digitValue? 10 c = some (c.toNat - '0'.toNat) := by
  rw [Char.isDigit_iff_toNat] at h
  have hzero : '0'.toNat = 48 := by decide
  have hnine : '9'.toNat = 57 := by decide
  rw [hzero, hnine] at h
  have hrange : 0x30 ≤ c.toNat ∧ c.toNat ≤ 0x39 := by omega
  have hlt : c.toNat - 48 < 10 := by omega
  simp [digitValue?, hrange, hlt]

theorem digitsFrom?_of_isDigit {cs : List Char} (h : ∀ c ∈ cs, c.isDigit = true) (high : Nat) :
    digitsFrom? 10 high cs = some (Nat.ofDigitChars 10 cs high) := by
  induction cs generalizing high with
  | nil => rw [digitsFrom?, Nat.ofDigitChars_nil]
  | cons c cs ih =>
    rw [digitsFrom?, digitValue?_of_isDigit (h c List.mem_cons_self), Nat.ofDigitChars_cons]
    exact ih (fun d hd => h d (List.mem_cons_of_mem c hd)) _

theorem isDigit_of_mem_decimal {n : Nat} {c : Char} (h : c ∈ Nat.toDigits 10 n) :
    c.isDigit = true :=
  Nat.isDigit_of_mem_toDigits (by decide) (by decide) h

/-- A decimal number does not begin with zero, unless it is zero. -/
theorem head?_toDigits_ne {n : Nat} (h : 0 < n) : (Nat.toDigits 10 n).head? ≠ some '0' := by
  induction n using Nat.strongRecOn with
  | ind n ih =>
    rw [Nat.toDigits_eq_if (by decide)]
    split
    · rename_i hsmall
      have hdigit : ∀ d < 10, 0 < d → Nat.digitChar d ≠ '0' := by decide
      simpa using hdigit n hsmall h
    · rename_i hlarge
      have hquotient := ih (n / 10) (by omega) (by omega)
      rw [List.head?_append]
      cases hdigits : Nat.toDigits 10 (n / 10) with
      | nil => exact absurd hdigits Nat.toDigits_ne_nil
      | cons c cs =>
        rw [hdigits] at hquotient
        exact hquotient

theorem isPadded_toDigits (n : Nat) : isPadded (Nat.toDigits 10 n) = false := by
  by_cases h : n = 0
  · subst h
    decide
  · have hhead := head?_toDigits_ne (Nat.pos_of_ne_zero h)
    have hdigit : ∀ c ∈ Nat.toDigits 10 n, c.isDigit = true := fun c hc => isDigit_of_mem_decimal hc
    cases hdigits : Nat.toDigits 10 n with
    | nil => decide
    | cons c cs =>
      rw [hdigits] at hhead hdigit
      have hc := hdigit c List.mem_cons_self
      have hsign : isSign c = false := by
        cases hs : isSign c with
        | false => rfl
        | true =>
          rw [isSign, Bool.or_eq_true, beq_iff_eq, beq_iff_eq] at hs
          rcases hs with hs | hs
          · rw [hs] at hc
            cases hc
          · rw [hs] at hc
            cases hc
      have hdrop : dropSign (c :: cs) = c :: cs := by simp [dropSign, hsign]
      unfold isPadded
      rw [hdrop]
      split
      · rename_i heq
        rw [heq] at hhead
        exact absurd rfl hhead
      · rfl

/-! ## Integers -/

/-- Decimal digits announce no other base. -/
theorem magnitude?_toDigits (n : Nat) : magnitude? (Nat.toDigits 10 n) = some n := by
  have hdigit : ∀ c ∈ Nat.toDigits 10 n, c.isDigit = true := fun c hc => isDigit_of_mem_decimal hc
  have hletter : ∀ {c d : Char} {cs : List Char}, Nat.toDigits 10 n = c :: d :: cs →
      d.isDigit = true := by
    intro c d cs heq
    exact hdigit d (by rw [heq]; simp)
  unfold magnitude?
  -- Behind the zero of each of the other bases stands a letter.
  split
  · rename_i heq
    exact absurd (hletter heq) (by decide)
  · rename_i heq
    exact absurd (hletter heq) (by decide)
  · rename_i heq
    exact absurd (hletter heq) (by decide)
  · rw [isPadded_toDigits]
    have hdigits : digits? 10 (Nat.toDigits 10 n) = digitsFrom? 10 0 (Nat.toDigits 10 n) := by
      cases hcase : Nat.toDigits 10 n with
      | nil => exact absurd hcase Nat.toDigits_ne_nil
      | cons c cs => rfl
    simp [hdigits, digitsFrom?_of_isDigit hdigit]

/-- A number as it is written: its digits, behind a minus sign if it is negative. -/
theorem toList_toString (n : Int) :
    ∃ m : Nat, ((toString n).toList = Nat.toDigits 10 m ∧ n = m) ∨
      ((toString n).toList = '-' :: Nat.toDigits 10 m ∧ n = -m) := by
  rw [Int.toString_eq_repr, Int.repr_eq_if]
  split
  · refine ⟨n.toNat, .inl ⟨?_, ?_⟩⟩
    · exact Nat.toList_repr
    · omega
  · refine ⟨(-n).toNat, .inr ⟨?_, ?_⟩⟩
    · rw [String.toList_append, Nat.toList_repr]
      rfl
    · omega

/-- A number that is not too large is read as it was. -/
theorem integer?_toString {n : Int} (hlow : -(1 <<< 127 : Nat) ≤ n)
    (hhigh : n < (1 <<< 128 : Nat)) : integer? (toString n).toList = some n := by
  obtain ⟨m, ⟨htext, hn⟩ | ⟨htext, hn⟩⟩ := toList_toString n
  · have hhead : ∀ {c : Char} {cs : List Char}, Nat.toDigits 10 m = c :: cs → c.isDigit = true := by
      intro c cs heq
      exact isDigit_of_mem_decimal (n := m) (by rw [heq]; simp)
    have hm : m < 1 <<< 128 := by omega
    rw [htext]
    unfold integer?
    -- No digit is a sign.
    split
    · rename_i heq
      exact absurd (hhead heq) (by decide)
    · rename_i heq
      exact absurd (hhead heq) (by decide)
    · simp only [magnitude?_toDigits, Option.filter_some, hm, decide_true, if_true, hn]
      rfl
  · have hm : m ≤ 1 <<< 127 := by omega
    rw [htext]
    simp only [integer?, magnitude?_toDigits, Option.filter_some, hm, decide_true, if_true, hn]
    rfl

end SchemaSummary.Yaml
