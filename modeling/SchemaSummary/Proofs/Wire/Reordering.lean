import SchemaSummary.Proofs.Wire.Records

/-! # Reordered records

  Records with the same fields in another order. Fields of one number keep their order, so that
  nothing changes which of several values counts or comes first.
-/

namespace SchemaSummary.Wire

theorem Record.mem_values_iff {r : Record} {number : Nat} {v : Value} :
    v ∈ r.values number ↔ (number, v) ∈ r := by
  simp [values]

/-- Whether a record can be had from another one by writing fields of different numbers in another
    order, in the record itself or in messages nested in it. -/
inductive Reordered : Record → Record → Prop
  /-- The values of every number stay in order. -/
  | order {r s : Record} (h : ∀ number, r.values number = s.values number) : Reordered r s
  /-- A nested message is reordered. -/
  | inside {before after : Record} {number : Nat} {r s : Record} (h : Reordered r s) :
      Reordered (before ++ (number, .message r) :: after)
        (before ++ (number, .message s) :: after)
  | trans {r s t : Record} (hfirst : Reordered r s) (hlast : Reordered s t) : Reordered r t

theorem Reordered.refl (r : Record) : Reordered r r := .order fun _ => rfl

/-- Fields may change places with fields of other numbers. -/
theorem Reordered.append_comm {r s : Record} (h : ∀ field ∈ r, ∀ other ∈ s, field.1 ≠ other.1) :
    Reordered (r ++ s) (s ++ r) := by
  refine .order fun number => ?_
  rw [Record.values_append, Record.values_append]
  cases hr : r.values number with
  | nil => simp
  | cons v vs =>
    cases hs : s.values number with
    | nil => simp
    | cons w ws =>
      -- Then both hold a field of this number.
      have hv : (number, v) ∈ r := Record.mem_values_iff.mp (by simp [hr])
      have hw : (number, w) ∈ s := Record.mem_values_iff.mp (by simp [hs])
      exact absurd rfl (h (number, v) hv (number, w) hw)

/-! ## What does not change -/

namespace Record

/-- Nesting is a matter of the values, not of their order. -/
theorem depth_le_of_values {r s : Record} (h : ∀ number, r.values number = s.values number) :
    r.depth ≤ s.depth := by
  rw [depth_le_iff]
  intro field hfield
  obtain ⟨number, v⟩ := field
  have hmem : (number, v) ∈ s := by
    rw [← mem_values_iff, ← h, mem_values_iff]
    exact hfield
  exact depth_le_iff.mp (Nat.le_refl s.depth) (number, v) hmem

end Record

/-- Messages are nested as deeply as before. -/
theorem Reordered.depth_eq {r s : Record} (h : Reordered r s) : r.depth = s.depth := by
  induction h with
  | order h =>
    exact Nat.le_antisymm (Record.depth_le_of_values h)
      (Record.depth_le_of_values fun number => (h number).symm)
  | inside _ ih => simp [ih]
  | trans _ _ ihfirst ihlast => exact ihfirst.trans ihlast

/-! ## A message that is replaced -/

section Inside

variable {α : Type} (before after : Record) (number : Nat) {r s : Record}

/-- What is read from the values of a field stays, if a message is replaced by one from which the
    same is read. -/
theorem filterMap_values_inside {f : Value → Option α} (h : f (.message r) = f (.message s))
    (field : Nat) :
    (Record.values field (before ++ (number, .message r) :: after)).filterMap f =
      (Record.values field (before ++ (number, .message s) :: after)).filterMap f := by
  by_cases hnumber : number = field
  · rw [← hnumber]
    simp [List.filterMap_cons, h]
  · simp [hnumber]

/-- What is read from the messages of a field stays, if one is replaced by one from which the same
    is read. -/
theorem map_messages_inside {g : Record → α} (h : g r = g s) (field : Nat) :
    (Record.messages field (before ++ (number, .message r) :: after)).map g =
      (Record.messages field (before ++ (number, .message s) :: after)).map g := by
  have hread := filterMap_values_inside before after number
    (f := fun v => v.message?.map g) (congrArg some h) field
  rwa [← List.map_filterMap, ← List.map_filterMap] at hread

end Inside

/-! ## What is read from reordered records -/

namespace Reordered

variable {r s : Record}

/-- What is read from values that are no messages stays. -/
theorem filterMap_values_eq {α : Type} (h : Reordered r s) {f : Value → Option α}
    (hf : ∀ fields, f (.message fields) = none) (number : Nat) :
    (r.values number).filterMap f = (s.values number).filterMap f := by
  induction h with
  | order h => rw [h]
  | @inside before after n r s _ _ =>
    exact filterMap_values_inside before after n ((hf r).trans (hf s).symm) number
  | trans _ _ ihfirst ihlast => exact ihfirst.trans ihlast

theorem texts_eq (h : Reordered r s) (number : Nat) : r.texts number = s.texts number :=
  h.filterMap_values_eq (fun _ => rfl) number

theorem text?_eq (h : Reordered r s) (number : Nat) : r.text? number = s.text? number :=
  congrArg List.getLast? (h.texts_eq number)

theorem varint?_eq (h : Reordered r s) (number : Nat) : r.varint? number = s.varint? number :=
  congrArg List.getLast? (h.filterMap_values_eq (fun _ => rfl) number)

/-- If the same is read from reordered messages, then also from all messages of a field. -/
theorem map_messages_eq {α : Type} (h : Reordered r s) {g : Record → α}
    (hg : ∀ {r s : Record}, Reordered r s → g r = g s) (number : Nat) :
    (r.messages number).map g = (s.messages number).map g := by
  induction h with
  | order h => rw [Record.messages, Record.messages, h]
  | @inside before after n _ _ h _ => exact map_messages_inside before after n (hg h) number
  | trans _ _ ihfirst ihlast => exact ihfirst.trans ihlast

end Reordered

end SchemaSummary.Wire
