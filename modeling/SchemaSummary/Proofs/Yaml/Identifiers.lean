import SchemaSummary.Proofs.Yaml.Scalar

/-! # Identifiers

  The names of a schema are identifiers, and its qualified names are identifiers with dots between
  them. Such a name cannot be taken for a number or for anything else in YAML, so it is written as
  it stands. There are nine exceptions, the words for null and for truth values, which are put
  between single quotes.
-/

namespace SchemaSummary.Yaml

/-! ## The names of a schema -/

/-- Whether a character can begin an identifier: the letters of ASCII and the underscore can. -/
def isInitial (c : Char) : Bool := ('A' ≤ c && c ≤ 'Z') || ('a' ≤ c && c ≤ 'z') || c == '_'

/-- Whether a text is an identifier: a letter or an underscore, and then letters, digits and
    underscores. -/
def isIdentifier : List Char → Bool
  | [] => false
  | c :: cs => isInitial c && cs.all fun d => isInitial d || d.isDigit

/-- Whether a text consists of identifiers with dots between them. -/
inductive Dotted : List Char → Prop where
  | single {v : List Char} (h : isIdentifier v = true) : Dotted v
  | cons {v rest : List Char} (h : isIdentifier v = true) (hrest : Dotted rest) :
      Dotted (v ++ '.' :: rest)

/-- The words among them that are written between quotes. -/
def reservedWords : List String :=
  ["null", "Null", "NULL", "true", "True", "TRUE", "false", "False", "FALSE"]

/-! ## Characters -/

theorem toNat_lt_of_isInitial {c : Char} (h : isInitial c = true) : c.toNat < 128 := by
  simp only [isInitial, Bool.or_eq_true, Bool.and_eq_true, decide_eq_true_eq, beq_iff_eq,
    Char.le_def, UInt32.le_iff_toNat_le] at h
  have hval : c.val.toNat = c.toNat := rfl
  rcases h with (h | h) | h
  · have hlast : 'Z'.val.toNat = 90 := rfl
    omega
  · have hlast : 'z'.val.toNat = 122 := rfl
    omega
  · rw [h]
    decide

/-- What the first character of an identifier is like. -/
structure InitialChar (c : Char) : Prop where
  word : isWordChar c = true
  sign : isSign c = false
  digit : c.isDigit = false
  value : digitValue? 10 c = none

theorem initialChar_of_isInitial {c : Char} (h : isInitial c = true) : InitialChar c := by
  have hall : ∀ n < 128, isInitial (Char.ofNat n) = true →
      isWordChar (Char.ofNat n) = true ∧ isSign (Char.ofNat n) = false ∧
        (Char.ofNat n).isDigit = false ∧ digitValue? 10 (Char.ofNat n) = none := by
    decide +kernel
  have hc := hall c.toNat (toNat_lt_of_isInitial h)
  rw [Char.ofNat_toNat] at hc
  obtain ⟨hword, hsign, hdigit, hvalue⟩ := hc h
  exact ⟨hword, hsign, hdigit, hvalue⟩

theorem exists_cons_of_isIdentifier {v : List Char} (h : isIdentifier v = true) :
    ∃ c cs, v = c :: cs ∧ isInitial c = true ∧
      ∀ d ∈ cs, isInitial d = true ∨ d.isDigit = true := by
  cases v with
  | nil => cases h
  | cons c cs =>
    rw [isIdentifier, Bool.and_eq_true, List.all_eq_true] at h
    exact ⟨c, cs, rfl, h.1, fun d hd => Bool.or_eq_true _ _ ▸ h.2 d hd⟩

/-- What separates and what begins something else stands in no identifier. -/
theorem token_of_isIdentifier {v : List Char} (h : isIdentifier v = true) : Token v := by
  obtain ⟨c, cs, rfl, hc, hcs⟩ := exists_cons_of_isIdentifier h
  intro d hd
  apply WordChar.toTokenChar
  apply wordChar_of_isWordChar
  rcases List.mem_cons.mp hd with rfl | hd
  · exact (initialChar_of_isInitial hc).word
  · rcases hcs d hd with hd | hd
    · exact (initialChar_of_isInitial hd).word
    · exact isWordChar_of_isDigit hd

namespace Dotted

variable {v : List Char}

/-- Neither do dots, between identifiers, separate anything. -/
theorem token (h : Dotted v) : Token v := by
  induction h with
  | single h => exact token_of_isIdentifier h
  | cons h _ ih =>
    intro d hd
    rcases List.mem_append.mp hd with hd | hd
    · exact token_of_isIdentifier h d hd
    · rcases List.mem_cons.mp hd with rfl | hd
      · exact ⟨by decide, by decide, by decide, by decide, by decide⟩
      · exact ih d hd

theorem exists_cons (h : Dotted v) : ∃ c cs, v = c :: cs ∧ InitialChar c := by
  cases h with
  | single h =>
    obtain ⟨c, cs, rfl, hc, -⟩ := exists_cons_of_isIdentifier h
    exact ⟨c, cs, rfl, initialChar_of_isInitial hc⟩
  | cons h _ =>
    obtain ⟨c, cs, rfl, hc, -⟩ := exists_cons_of_isIdentifier h
    exact ⟨c, _, rfl, initialChar_of_isInitial hc⟩

end Dotted

/-! ## What such names are not -/

namespace InitialChar

variable {c : Char}

theorem ne_of_isSign {d : Char} (h : InitialChar c) (hd : isSign d = true) : c ≠ d := by
  intro heq
  rw [← heq, h.sign] at hd
  cases hd

theorem ne_of_isDigit {d : Char} (h : InitialChar c) (hd : d.isDigit = true) : c ≠ d := by
  intro heq
  rw [← heq, h.digit] at hd
  cases hd

theorem dot_ne (h : InitialChar c) : c ≠ '.' := (wordChar_of_isWordChar h.word).dot

variable (h : InitialChar c) (cs : List Char)

include h

theorem dropSign : dropSign (c :: cs) = c :: cs := by
  simp [Yaml.dropSign, h.sign]

theorem digits? : digits? 10 (c :: cs) = none := by
  simp [Yaml.digits?, digitsFrom?, h.value]

theorem isPadded : isPadded (c :: cs) = false := by
  unfold Yaml.isPadded
  rw [h.dropSign]
  split
  · rename_i heq
    exact absurd (List.cons.inj heq).1 (h.ne_of_isDigit (by decide))
  · rfl

theorem magnitude? : magnitude? (c :: cs) = none := by
  have hzero : c ≠ '0' := h.ne_of_isDigit (by decide)
  unfold Yaml.magnitude?
  split
  · rename_i heq
    exact absurd (List.cons.inj heq).1 hzero
  · rename_i heq
    exact absurd (List.cons.inj heq).1 hzero
  · rename_i heq
    exact absurd (List.cons.inj heq).1 hzero
  · rw [h.isPadded, h.digits?]
    rfl

theorem integer? : integer? (c :: cs) = none := by
  unfold Yaml.integer?
  split
  · rename_i heq
    exact absurd (List.cons.inj heq).1 (h.ne_of_isSign (by decide))
  · rename_i heq
    exact absurd (List.cons.inj heq).1 (h.ne_of_isSign (by decide))
  · rw [h.magnitude?]
    rfl

/-- There are digits in front of every exponent, so names such as `e5`, `inf` and `nan` are no
    numbers. -/
theorem decimal? : decimal? (c :: cs) = none := by
  simp [Yaml.decimal?, h.digit, h.dot_ne, Yaml.digits?]

theorem isFloat : isFloat (c :: cs) = false := by
  have hword : ∀ word ∈ nanWords ++ infinityWords, String.ofList (c :: cs) ≠ word := by
    intro word hword heq
    have hdot : ∀ w ∈ nanWords ++ infinityWords, w.toList.head? = some '.' := by decide
    have hhead := hdot word hword
    rw [← heq, String.toList_ofList] at hhead
    exact h.dot_ne (Option.some.inj hhead)
  have hnan : nanWords.contains (String.ofList (c :: cs)) = false := by
    simpa using fun hmem => hword _ (List.mem_append_left _ hmem) rfl
  have hinfinity : infinityWords.contains (String.ofList (c :: cs)) = false := by
    simpa using fun hmem => hword _ (List.mem_append_right _ hmem) rfl
  rw [Yaml.isFloat, h.dropSign, h.decimal?, hnan, hinfinity]
  rfl

end InitialChar

/-! ## How such names are written -/

namespace Dotted

/-- Only the words for null and for truth values are read as something other than a text. -/
theorem readsAsText {v : String} (h : Dotted v.toList) :
    readsAsText v.toList = !reservedWords.contains v := by
  obtain ⟨c, cs, hv, hc⟩ := h.exists_cons
  have hempty : v ≠ "" := by
    intro heq
    rw [heq] at hv
    cases hv
  have htilde : v ≠ "~" := by
    intro heq
    rw [heq] at hv
    have hword := hc.word
    rw [← (List.cons.inj hv).1] at hword
    exact absurd hword (by decide)
  have hwords : (nullWords.contains v || booleanWords.contains v) = reservedWords.contains v := by
    simp [nullWords, booleanWords, reservedWords, hempty, htilde, Bool.or_assoc]
  rw [Yaml.readsAsText, String.ofList_toList, hwords, hv, hc.integer?, hc.isFloat, hc.isPadded]
  simp

/-- Any style would do for such a name, and the plain one carries it. -/
theorem plainCarries (h : Dotted v) : plainCarries v = true := by
  obtain ⟨c, cs, rfl, hc⟩ := h.exists_cons
  have hdash : c ≠ '-' := hc.ne_of_isSign (by decide)
  apply h.token.plainCarries
  · exact h.token.startsOtherwise hdash cs
  · simp [marksDocument, hdash, hc.dot_ne]

theorem styleOf {v : String} (h : Dotted v.toList) (hreserved : v ∉ reservedWords) :
    styleOf v.toList = .plain := by
  have hline : '\n' ∉ v.toList := h.token.notMem (.inl (by decide))
  have hpreferred : preferredStyle v.toList = .plain := by
    simp [preferredStyle, hline, h.readsAsText, hreserved]
  rw [Yaml.styleOf, if_pos ⟨hpreferred, h.plainCarries⟩]

/-- **Names of a schema** are written as they stand, with quotes around reserved words only. -/
theorem pieces_ofText {v : String} (h : Dotted v.toList) :
    (Scalar.ofText v).pieces =
      [(if v ∈ reservedWords then '\x27' :: v.toList ++ ['\x27'] else v.toList, none)] := by
  by_cases hreserved : v ∈ reservedWords
  · have hquoted : ∀ word ∈ reservedWords,
        (Scalar.ofText word).pieces = [('\x27' :: word.toList ++ ['\x27'], none)] := by
      decide
    rw [if_pos hreserved]
    exact hquoted v hreserved
  · have hquoted : (Scalar.ofText v).quoted = false := by
      rw [Scalar.ofText, h.styleOf hreserved]
      rfl
    rw [if_neg hreserved, Scalar.pieces, Scalar.style, hquoted]
    rfl

end Dotted

end SchemaSummary.Yaml
