import SchemaSummary.Proofs.Yaml.Literal
import SchemaSummary.Proofs.Yaml.Plain
import SchemaSummary.Proofs.Yaml.Quoted
import SchemaSummary.Proofs.Yaml.Words

/-! # Reading scalars

  Whatever style is chosen for a scalar carries it: a scalar is read as it was, with the lines
  behind it left over.
-/

namespace SchemaSummary.Yaml

namespace Scalar

/-- Whether a scalar can do without quotes if it has none. -/
def Writable (s : Scalar) : Prop :=
  s.quoted = false → s.text.toList ≠ [] ∧ plainCarries s.text.toList = true

/-- Every text can be written. -/
theorem writable_ofText (v : String) : (ofText v).Writable := by
  intro hquoted
  have hstyle : styleOf v.toList = .plain := by
    have hne : (styleOf v.toList != .plain) = false := hquoted
    revert hne
    cases styleOf v.toList <;> decide
  unfold styleOf at hstyle
  -- The other styles are chosen where the plain one does not carry the text.
  split at hstyle
  · rename_i h
    refine ⟨?_, h.2⟩
    -- The empty text is read as null, so it is not written plain.
    intro hnil
    have hpreferred := h.1
    change v.toList = [] at hnil
    rw [hnil] at hpreferred
    exact absurd hpreferred (by decide)
  · unfold quotedStyle at hstyle
    split at hstyle
    · split at hstyle <;> cases hstyle
    · split at hstyle <;> cases hstyle

/-- Every number can be written. -/
theorem writable_ofInt (n : Int) : (ofInt n).Writable := by
  intro _
  refine ⟨?_, plainCarries_toString n⟩
  obtain ⟨m, ⟨htext, -⟩ | ⟨htext, -⟩⟩ := toList_toString n
  · show (toString n).toList ≠ []
    rw [htext]
    exact Nat.toDigits_ne_nil
  · show (toString n).toList ≠ []
    rw [htext]
    exact List.cons_ne_nil _ _

/-! ## The choice of a style -/

theorem singleQuotable_of_carries {v : List Char} (h : singleQuotedCarries v = true)
    (hfold : v.contains '\n' = false) : SingleQuotable v := by
  simp only [singleQuotedCarries, Bool.and_eq_true, Bool.not_eq_true', Bool.or_eq_false_iff] at h
  refine ⟨h.2, ?_, h.1.2, h.1.1⟩
  simpa using hfold

/-- A quoted text is in the style that carries it. -/
theorem quotedStyle_cases (v : List Char) :
    (quotedStyle v = .literal ∧ v ≠ [] ∧ v.all isPrintable = true) ∨
      (quotedStyle v = .singleQuoted ∧ SingleQuotable v) ∨ quotedStyle v = .doubleQuoted := by
  unfold quotedStyle
  split
  · rename_i hbreak
    split
    · rename_i hcarries
      left
      refine ⟨rfl, ?_, ?_⟩
      · intro hnil
        rw [hnil] at hbreak
        cases hbreak
      · rw [literalCarries, Bool.and_eq_true] at hcarries
        exact hcarries.2
    · exact .inr (.inr rfl)
  · rename_i hbreak
    split
    · rename_i hcarries
      exact .inr (.inl ⟨rfl, singleQuotable_of_carries hcarries (Bool.not_eq_true _ ▸ hbreak)⟩)
    · exact .inr (.inr rfl)

/-! ## Pieces -/

theorem written_literal {v : List Char} (h : v.all isPrintable = true) :
    ∀ p ∈ piecesIn .literal v, p.Written := by
  intro p hp
  rw [piecesIn, List.mem_cons] at hp
  rcases hp with hp | hp
  · obtain ⟨cs, htext, hheader, hunbroken, -⟩ := parse?_text v
    have hbar : isPrintable '|' = true ∧ isBreak '|' = false := by decide
    rw [hp, htext]
    refine ⟨?_, ?_, (by decide : isBreak '\n' = true ∧ isPrintable '\n' = true)⟩
    · rw [List.all_cons, hbar.1, hheader]
      rfl
    · rw [List.any_cons, hbar.2, hunbroken]
      rfl
  · exact written_of_mem_pieces h hp

/-- The pieces of a scalar can be written as they are. -/
theorem written_pieces {s : Scalar} (h : s.Writable) : ∀ p ∈ s.pieces, p.Written := by
  intro p hp
  unfold pieces style at hp
  split at hp
  · rcases quotedStyle_cases s.text.toList with
      ⟨hstyle, -, hprintable⟩ | ⟨hstyle, hquotable⟩ | hstyle
    · rw [hstyle] at hp
      exact written_literal hprintable p hp
    · rw [hstyle, piecesIn] at hp
      exact written_of_mem_pieces (isPrintable_singleQuoted hquotable.printable) hp
    · rw [hstyle, piecesIn] at hp
      exact written_of_mem_pieces (isPrintable_doubleQuoted _) hp
  · rename_i hquoted
    have hplain := plainText_of_carries (h (Bool.not_eq_true _ ▸ hquoted)).2
    rw [piecesIn, List.mem_singleton] at hp
    rw [hp]
    exact ⟨hplain.printable, hplain.unbroken,
      (by decide : isBreak '\n' = true ∧ isPrintable '\n' = true)⟩

/-! ## Reading what was written -/

/-- Whether pieces behind a key in the block at `parent` are read as a scalar, with `rest` left
    over. What they begin with is neither a gap nor a list. -/
def ReadAs (s : Scalar) (parent : Nat) (rest : List Line) (written : List Piece) : Prop :=
  ∃ (c : Char) (cs : List Char) (stop : Option Char) (ps : List Piece),
    written = (c :: cs, stop) :: ps ∧ isGap c = false ∧ c ≠ '[' ∧
    readScalar parent (c :: cs) (some (stop.getD '\n'))
      (ps.map (Line.ofLaterPiece (parent + Node.indentation)) ++ rest) = some (s, rest)

section ReadAs

variable {v : List Char} {parent : Nat} {rest : List Line}

theorem readAs_literal (hprintable : v.all isPrintable = true) (hne : v ≠ [])
    (hrest : Ends parent rest) :
    ReadAs ⟨String.ofList v, true⟩ parent rest (piecesIn .literal v) := by
  obtain ⟨cs, htext, -⟩ := parse?_text v
  have hread := readScalar_literal hprintable hne hrest (some '\n')
  rw [htext] at hread
  refine ⟨'|', cs, some '\n', Yaml.pieces v, ?_, by decide, by decide, hread⟩
  rw [piecesIn, htext]

theorem readAs_singleQuoted (h : SingleQuotable v) (parent : Nat) (rest : List Line) :
    ReadAs ⟨String.ofList v, true⟩ parent rest (piecesIn .singleQuoted v) := by
  have hpos : 0 < parent + Node.indentation := by
    unfold Node.indentation
    omega
  obtain ⟨p, ps, hpieces, hread⟩ := readScalar_singleQuoted h parent hpos rest
  exact ⟨'\x27', p.1, p.2, ps, hpieces, by decide, by decide, hread⟩

theorem readAs_doubleQuoted (v : List Char) (parent : Nat) (rest : List Line) :
    ReadAs ⟨String.ofList v, true⟩ parent rest (piecesIn .doubleQuoted v) := by
  have hread := readScalar_doubleQuoted v parent (some '\n') rest
  exact ⟨'"', _, none, [], pieces_doubleQuoted v, by decide, by decide, hread⟩

theorem readAs_plain (h : PlainText v) (hne : v ≠ []) (hrest : Ends parent rest) :
    ReadAs ⟨String.ofList v, false⟩ parent rest (piecesIn .plain v) := by
  have hread := h.readScalar hne hrest
  obtain ⟨c, cs, rfl⟩ := List.exists_cons_of_ne_nil hne
  refine ⟨c, cs, none, [], rfl, ?_, ?_, hread⟩
  · have hprintable := h.printable
    rw [List.all_cons, Bool.and_eq_true] at hprintable
    rw [isGap_of_isPrintable hprintable.1]
    apply beq_false_of_ne
    intro hspace
    exact h.head (by rw [hspace]; rfl)
  · intro hlist
    exact h.head_ne (c := '[') (by decide) (by rw [hlist]; rfl)

end ReadAs

/-- **Scalars**: whatever a text consists of, the scalar that it is written as is read as it
    was. -/
theorem readAs_pieces {s : Scalar} (h : s.Writable) {parent : Nat} {rest : List Line}
    (hrest : Ends parent rest) : ReadAs s parent rest s.pieces := by
  obtain ⟨text, quoted⟩ := s
  have htext : String.ofList text.toList = text := String.ofList_toList
  cases quoted with
  | true =>
    show ReadAs ⟨text, true⟩ parent rest (piecesIn (quotedStyle text.toList) text.toList)
    rcases quotedStyle_cases text.toList with
      ⟨hstyle, hne, hprintable⟩ | ⟨hstyle, hquotable⟩ | hstyle
    · rw [hstyle, ← htext, String.toList_ofList]
      exact readAs_literal hprintable hne hrest
    · rw [hstyle, ← htext, String.toList_ofList]
      exact readAs_singleQuoted hquotable parent rest
    · rw [hstyle, ← htext, String.toList_ofList]
      exact readAs_doubleQuoted text.toList parent rest
  | false =>
    obtain ⟨hne, hcarries⟩ : text.toList ≠ [] ∧ plainCarries text.toList = true := h rfl
    show ReadAs ⟨text, false⟩ parent rest (piecesIn .plain text.toList)
    rw [← htext, String.toList_ofList]
    exact readAs_plain (plainText_of_carries hcarries) hne hrest

end Scalar

end SchemaSummary.Yaml
