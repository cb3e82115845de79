import SchemaSummary.Proofs.Yaml.Lines
import SchemaSummary.Proofs.Yaml.Numbers

/-! # Words

  Keys and numbers consist of letters, digits, dashes and underscores. None of these characters
  means anything in YAML, except for a dash in front of a separator. So a key is found again in
  front of its colon, and a number can be written plain. Most of this holds of all texts without
  separators, indicators and colons, which are called tokens here.
-/

namespace SchemaSummary.Yaml

/-! ## Characters -/

/-- The characters of keys and numbers. -/
def isWordChar (c : Char) : Bool :=
  let n := c.toNat
  (0x30 ≤ n && n ≤ 0x39) || (0x41 ≤ n && n ≤ 0x5A) || (0x61 ≤ n && n ≤ 0x7A) || c == '_' || c == '-'

theorem toNat_lt_of_isWordChar {c : Char} (h : isWordChar c = true) : c.toNat < 128 := by
  simp only [isWordChar, Bool.or_eq_true, Bool.and_eq_true, decide_eq_true_eq, beq_iff_eq] at h
  rcases h with (((h | h) | h) | h) | h
  · omega
  · omega
  · omega
  · rw [h]
    decide
  · rw [h]
    decide

theorem isWordChar_of_isDigit {c : Char} (h : c.isDigit = true) : isWordChar c = true := by
  rw [Char.isDigit_iff_toNat] at h
  have hrange : 0x30 ≤ c.toNat ∧ c.toNat ≤ 0x39 := h
  simp [isWordChar, hrange]

/-- What characters are like that end no token and begin nothing else, wherever they stand. -/
structure TokenChar (c : Char) : Prop where
  printable : isPrintable c = true
  separator : isSeparator c = false
  indicator : c ∉ indicators
  colon : c ≠ ':'
  question : c ≠ '?'

/-- What the characters of words are like. -/
structure WordChar (c : Char) : Prop extends TokenChar c where
  dot : c ≠ '.'
  size : c.utf8Size = 1

theorem wordChar_of_isWordChar {c : Char} (h : isWordChar c = true) : WordChar c := by
  -- There are few enough characters in question to look at each of them.
  have hall : ∀ n < 128, isWordChar (Char.ofNat n) = true →
      isPrintable (Char.ofNat n) = true ∧ isSeparator (Char.ofNat n) = false ∧
        Char.ofNat n ∉ indicators ∧ Char.ofNat n ≠ ':' ∧ Char.ofNat n ≠ '?' ∧
        Char.ofNat n ≠ '.' ∧ (Char.ofNat n).utf8Size = 1 := by
    decide +kernel
  have hc := hall c.toNat (toNat_lt_of_isWordChar h)
  rw [Char.ofNat_toNat] at hc
  obtain ⟨hprintable, hseparator, hindicator, hcolon, hquestion, hdot, hsize⟩ := hc h
  exact ⟨⟨hprintable, hseparator, hindicator, hcolon, hquestion⟩, hdot, hsize⟩

/-! ## Tokens -/

/-- Whether a text consists of characters that end no token and begin nothing else. -/
def Token (v : List Char) : Prop := ∀ c ∈ v, TokenChar c

namespace Token

variable {v : List Char} {c : Char}

theorem tail (h : Token (c :: v)) : Token v := by
  intro d hd
  exact h d (List.mem_cons_of_mem c hd)

theorem isPrintable (h : Token v) : v.all isPrintable = true := by
  rw [List.all_eq_true]
  intro c hc
  exact (h c hc).printable

theorem isBreak (h : Token v) : v.any isBreak = false := by
  rw [List.any_eq_false]
  intro c hc hbreak
  have hseparator := (h c hc).separator
  simp [isSeparator, hbreak] at hseparator

/-- What separates or begins something else stands in no token. -/
theorem notMem (h : Token v) (hc : isSeparator c = true ∨ c ∈ indicators) : c ∉ v := by
  intro hmem
  have htoken := h c hmem
  rcases hc with hc | hc
  · rw [htoken.separator] at hc
    cases hc
  · exact htoken.indicator hc

/-- A token has no key in front of a colon. -/
theorem splitKey? (h : Token v) : splitKey? v = none := by
  induction v with
  | nil => rfl
  | cons c v ih =>
    have hcolon := (h c List.mem_cons_self).colon
    have hrest := ih h.tail
    simp [Yaml.splitKey?, hcolon, hrest]

/-- A colon behind a token ends the first key of a text. -/
theorem splitKey?_append (h : Token v) {head : List Char} (hhead : endsToken head = true) :
    Yaml.splitKey? (v ++ ':' :: head) = some (v, head) := by
  induction v with
  | nil => simp [Yaml.splitKey?, hhead]
  | cons c v ih =>
    have hcolon := (h c List.mem_cons_self).colon
    have hrest := ih h.tail
    simp [Yaml.splitKey?, hcolon, hrest]

/-- A comment begins with a character that stands in no token. -/
theorem hasComment (h : Token v) : hasComment v = false := by
  have hadjacent : ∀ (cs : List Char) (d : Char), '#' ∉ cs →
      adjacent isSeparator (· == '#') (d :: cs) = false := by
    intro cs
    induction cs with
    | nil =>
      intro d hcs
      rfl
    | cons c cs ih =>
      intro d hcs
      rw [List.mem_cons, not_or] at hcs
      have hc : (c == '#') = false := beq_false_of_ne (Ne.symm hcs.1)
      rw [adjacent, ih c hcs.2, hc, Bool.and_false, Bool.or_false]
  exact hadjacent v ' ' (h.notMem (.inr (by decide)))

/-- A token that does not begin with a dash begins nothing else. -/
theorem startsOtherwise (h : Token (c :: v)) (hdash : c ≠ '-') (cs : List Char) :
    startsOtherwise (c :: cs) = false := by
  have hc := h c List.mem_cons_self
  simp [Yaml.startsOtherwise, hc.separator, hc.indicator, hc.question, hdash]

/-- No token ends in a gap. -/
theorem dropGapEnd (h : Token v) : dropGapEnd v = v := by
  apply dropGapEnd_of_getLast h.isPrintable
  intro hlast
  exact h.notMem (.inl (by decide)) (List.mem_of_getLast? hlast)

/-- A token that begins with at most one dash or dot can be written plain. -/
theorem plainCarries (h : Token v) (hstarts : Yaml.startsOtherwise v = false)
    (hmark : marksDocument v = false) : plainCarries v = true := by
  have hspace : ∀ c ∈ v, isSpaceOrBreak c = false := by
    intro c hc
    have hseparator := (h c hc).separator
    simp only [isSeparator, Bool.or_eq_false_iff] at hseparator
    rw [isSpaceOrBreak, hseparator.1.1.1, hseparator.1.2]
    rfl
  have hfirst : v.head?.any isSpaceOrBreak = false := by
    cases hv : v.head? with
    | none => rfl
    | some c => exact hspace c (List.mem_of_head? hv)
  have hlast : v.getLast?.any isSpaceOrBreak = false := by
    cases hv : v.getLast? with
    | none => rfl
    | some c => exact hspace c (List.mem_of_getLast? hv)
  simp [Yaml.plainCarries, hfirst, hlast, h.isBreak, hasStructure, hstarts, endsPlain, h.splitKey?,
    h.hasComment, hmark, h.isPrintable]

end Token

/-! ## Words -/

/-- Whether a text consists of the characters of keys and numbers. -/
def Word (v : List Char) : Prop := ∀ c ∈ v, isWordChar c = true

namespace Word

variable {v : List Char} {c : Char}

theorem wordChar (h : Word v) (hc : c ∈ v) : WordChar c := wordChar_of_isWordChar (h c hc)

theorem token (h : Word v) : Token v := fun _ hc => (h.wordChar hc).toTokenChar

theorem tail (h : Word (c :: v)) : Word v := by
  intro d hd
  exact h d (List.mem_cons_of_mem c hd)

end Word

/-! ## Lengths in bytes -/

theorem utf8Length_cons (c : Char) (cs : List Char) :
    utf8Length (c :: cs) = c.utf8Size + utf8Length cs := rfl

theorem utf8Length_append (cs ds : List Char) :
    utf8Length (cs ++ ds) = utf8Length cs + utf8Length ds := by
  induction cs with
  | nil =>
    rw [List.nil_append]
    exact (Nat.zero_add _).symm
  | cons c cs ih =>
    rw [List.cons_append, utf8Length_cons, utf8Length_cons, ih]
    omega

theorem Word.utf8Length {v : List Char} (h : Word v) : utf8Length v = v.length := by
  induction v with
  | nil => rfl
  | cons c v ih =>
    rw [utf8Length_cons, (h.wordChar List.mem_cons_self).size, ih h.tail, List.length_cons]
    omega

/-! ## Numbers -/

/-- Every number can be written plain. -/
theorem plainCarries_toString (n : Int) : plainCarries (toString n).toList = true := by
  obtain ⟨m, htext⟩ := toList_toString n
  have hdigit : ∀ c ∈ Nat.toDigits 10 m, isWordChar c = true ∧ c ≠ '-' := by
    intro c hc
    have hc := isDigit_of_mem_decimal hc
    constructor
    · exact isWordChar_of_isDigit hc
    · intro heq
      rw [heq] at hc
      cases hc
  cases hdigits : Nat.toDigits 10 m with
  | nil => exact absurd hdigits Nat.toDigits_ne_nil
  | cons d ds =>
    rw [hdigits] at htext hdigit
    have hword : Word (d :: ds) := fun c hc => (hdigit c hc).1
    have hdash : d ≠ '-' := (hdigit d List.mem_cons_self).2
    have hd := hword.wordChar List.mem_cons_self
    rcases htext with ⟨htext, -⟩ | ⟨htext, -⟩
    · rw [htext]
      apply hword.token.plainCarries
      · exact hword.token.startsOtherwise hdash ds
      · simp [marksDocument, hdash, hd.dot]
    · have hsigned : Word ('-' :: d :: ds) := by
        intro c hc
        rcases List.mem_cons.mp hc with hc | hc
        · rw [hc]
          decide
        · exact hword c hc
      rw [htext]
      apply hsigned.token.plainCarries
      · -- The dash is a sign, because a digit is no separator.
        have hend : endsToken (d :: ds) = false := hd.separator
        have hstart : isSeparator '-' = false ∧ '-' ∉ indicators := by decide
        simp [startsOtherwise, hend, hstart.1, hstart.2]
      · simp [marksDocument, hdash]

/-! ## Keys -/

/-- What a key that is written is like. -/
structure KeyWord (key : List Char) : Prop where
  word : Word key
  head : key.head?.any Char.isLower = true
  short : key.length ≤ keyLimit

/-- Whether a key can be written, as a computation. -/
def isKeyWord (key : List Char) : Bool :=
  key.all isWordChar && key.head?.any Char.isLower && Nat.ble key.length keyLimit

theorem isKeyWord_iff (key : List Char) : isKeyWord key = true ↔ KeyWord key := by
  unfold isKeyWord
  rw [Bool.and_eq_true, Bool.and_eq_true, List.all_eq_true, Nat.ble_eq]
  constructor
  · intro h
    exact ⟨h.1.1, h.1.2, h.2⟩
  · intro h
    exact ⟨⟨h.word, h.head⟩, h.short⟩

instance (key : List Char) : Decidable (KeyWord key) := decidable_of_iff _ (isKeyWord_iff key)

namespace KeyWord

variable {key : List Char}

theorem exists_cons (h : KeyWord key) : ∃ c cs, key = c :: cs ∧ c.isLower = true := by
  cases key with
  | nil => cases h.head
  | cons c cs => exact ⟨c, cs, rfl, h.head⟩

/-- What begins something else, or an item, does not begin a key. -/
theorem head_ne (h : KeyWord key) {d : Char} (hd : d ∈ indicators ∨ d = '-') :
    key.head? ≠ some d := by
  obtain ⟨c, cs, rfl, hlower⟩ := h.exists_cons
  intro hhead
  have hc : c = d := Option.some.inj hhead
  rcases hd with hd | hd
  · exact (h.word.wordChar List.mem_cons_self).indicator (hc ▸ hd)
  · rw [hc, hd] at hlower
    cases hlower

theorem plainKey? (h : KeyWord key) {head : List Char} (hhead : endsToken head = true) :
    plainKey? (key ++ ':' :: head) = some (.text (String.ofList key), head) := by
  obtain ⟨c, cs, rfl, -⟩ := h.exists_cons
  have hdash : c ≠ '-' := fun hc => h.head_ne (.inr rfl) (by rw [hc]; rfl)
  have hstarts := h.word.token.startsOtherwise hdash (cs ++ ':' :: head)
  rw [Yaml.plainKey?, h.word.token.splitKey?_append hhead]
  simp [hstarts, h.word.token.hasComment, h.word.token.dropGapEnd]

/-- The colon of a key stands near enough to its beginning. -/
theorem utf8Length_le (h : KeyWord key) (head : List Char) :
    utf8Length (key ++ ':' :: head) ≤ keyLimit + 1 + utf8Length head := by
  have hshort := h.short
  have hcolon : ':'.utf8Size = 1 := by decide
  rw [utf8Length_append, h.word.utf8Length, utf8Length_cons, hcolon]
  omega

/-- **Keys** are found again in front of their colons. -/
theorem keyed? (h : KeyWord key) {head : List Char} (hhead : endsToken head = true) (indent : Nat)
    (stop : Option Char) :
    Line.keyed? ⟨indent, key ++ ':' :: head, stop⟩ = some (.text (String.ofList key), head) := by
  have hplain := h.plainKey? hhead
  have hlength := h.utf8Length_le head
  obtain ⟨c, cs, rfl, -⟩ := h.exists_cons
  have hne : ∀ d, d ∈ indicators ∨ d = '-' → c ≠ d := by
    intro d hd heq
    exact h.head_ne hd (by rw [heq]; rfl)
  have hdot := (h.word.wordChar List.mem_cons_self).dot
  have hmark : Line.isDocumentMark ⟨indent, (c :: cs) ++ ':' :: head, stop⟩ = false := by
    simp [Line.isDocumentMark, marksDocument, hne '-' (.inr rfl), hdot]
  have hquote : Quote.ofMark? c = none := by
    unfold Quote.ofMark?
    split
    · exact absurd rfl (hne '\x27' (.inl (by decide)))
    · exact absurd rfl (hne '"' (.inl (by decide)))
    · rfl
  have hfirst : ((c :: cs) ++ ':' :: head).head?.bind Quote.ofMark? = none := hquote
  rw [Line.keyed?, hmark, if_neg Bool.false_ne_true]
  split
  · rename_i heq
    exact absurd (List.cons.inj heq).1 (hne '[' (.inl (by decide)))
  · simp only [hfirst, hplain, Option.filter_some, hlength, decide_true, if_true]

theorem keyed?_ofList {word : String} (h : KeyWord word.toList) {head : List Char}
    (hhead : endsToken head = true) (indent : Nat) (stop : Option Char) :
    Line.keyed? ⟨indent, word.toList ++ ':' :: head, stop⟩ = some (.text word, head) := by
  rw [h.keyed? hhead, String.ofList_toList]

end KeyWord

end SchemaSummary.Yaml
