/-! # Steps that may fail

  A function that may fail, applied to one item of a list after the other. Either all steps
  succeed and their results come in the order of the items, or the error of the first failing
  item is the outcome.
-/

namespace SchemaSummary

variable {ε α β : Type}

theorem bind_eq_ok_iff {x : Except ε α} {f : α → Except ε β} {b : β} :
    x >>= f = .ok b ↔ ∃ a, x = .ok a ∧ f a = .ok b := by
  cases x with
  | error e => simp [bind, Except.bind]
  | ok a => simp [bind, Except.bind]

theorem bind_eq_error_iff {x : Except ε α} {f : α → Except ε β} {e : ε} :
    x >>= f = .error e ↔ x = .error e ∨ ∃ a, x = .ok a ∧ f a = .error e := by
  cases x with
  | error e => simp [bind, Except.bind]
  | ok a => simp [bind, Except.bind]

theorem mapM_cons_error {f : α → Except ε β} {x : α} {e : ε} (h : f x = .error e) (xs : List α) :
    (x :: xs).mapM f = .error e := by
  rw [List.mapM_cons, h]
  rfl

theorem mapM_cons_ok {f : α → Except ε β} {x : α} {b : β} (h : f x = .ok b) (xs : List α) :
    (x :: xs).mapM f = (xs.mapM f).map (b :: ·) := by
  rw [List.mapM_cons, h]
  rfl

/-- A function of each result can be applied step by step. -/
theorem mapM_map {γ : Type} (f : α → Except ε β) (g : β → γ) (xs : List α) :
    xs.mapM (fun x => (f x).map g) = (xs.mapM f).map (List.map g) := by
  induction xs with
  | nil => rfl
  | cons x xs ih =>
    cases h : f x with
    | error e => rw [mapM_cons_error h, mapM_cons_error (by rw [h]; rfl)]; rfl
    | ok b =>
      rw [mapM_cons_ok h, mapM_cons_ok (b := g b) (by rw [h]; rfl), ih]
      cases xs.mapM f <;> rfl

/-- The results of all steps can be folded as they come. -/
theorem foldlM_eq_map_mapM {γ : Type} (f : α → Except ε β) (g : γ → β → γ) (xs : List α) (c : γ) :
    xs.foldlM (fun c x => (f x).map (g c)) c = (xs.mapM f).map fun bs => bs.foldl g c := by
  induction xs generalizing c with
  | nil => rfl
  | cons x xs ih =>
    rw [List.foldlM_cons]
    cases h : f x with
    | error e =>
      rw [mapM_cons_error h]
      rfl
    | ok b =>
      rw [mapM_cons_ok h]
      show xs.foldlM _ (g c b) = _
      rw [ih]
      cases xs.mapM f <;> rfl

/-- Steps with the same results in the same order come to the same end. -/
theorem mapM_eq_of_map_eq {f : α → Except ε β} {xs ys : List α} (h : xs.map f = ys.map f) :
    xs.mapM f = ys.mapM f := by
  have hmap : ∀ zs : List α, (zs.map f).mapM id = zs.mapM f := fun _ => List.mapM_map
  rw [← hmap xs, h, hmap ys]

/-- All steps succeed exactly if each of them does, and the results are theirs in order. -/
theorem mapM_eq_ok_iff {f : α → Except ε β} {xs : List α} {bs : List β} :
    xs.mapM f = .ok bs ↔ xs.map f = bs.map .ok := by
  induction xs generalizing bs with
  | nil =>
    rw [List.mapM_nil]
    cases bs <;> simp [pure, Except.pure]
  | cons x xs ih =>
    cases h : f x with
    | error e =>
      rw [mapM_cons_error h]
      cases bs <;> simp [h]
    | ok b =>
      rw [mapM_cons_ok h]
      cases bs with
      | nil => cases xs.mapM f <;> simp [Except.map]
      | cons c bs =>
        cases hxs : xs.mapM f with
        | error e => simp [Except.map, ← ih, hxs]
        | ok cs => simp [Except.map, ← ih, hxs, h]

/-- Where single results correspond, so do the results of all steps. -/
theorem map_eq_map_ok_iff {f g : α → Except ε β} {t : β → β}
    (h : ∀ x b, f x = .ok b ↔ g x = .ok (t b)) {xs : List α} {bs : List β} :
    xs.map f = bs.map .ok ↔ xs.map g = (bs.map t).map .ok := by
  induction xs generalizing bs with
  | nil => cases bs <;> simp
  | cons x xs ih =>
    cases bs with
    | nil => simp
    | cons b bs => simp only [List.map_cons, List.cons.injEq, h x b, ih]

/-- What each result tells of its item, all results tell of all items. -/
theorem map_eq_map_of_map_ok {γ : Type} {f : α → Except ε β} {t : β → γ} {u : α → γ}
    (h : ∀ x b, f x = .ok b → t b = u x) {xs : List α} {bs : List β}
    (hbs : xs.map f = bs.map .ok) : bs.map t = xs.map u := by
  induction xs generalizing bs with
  | nil =>
    rw [List.map_eq_nil_iff.mp hbs.symm]
    rfl
  | cons x xs ih =>
    cases bs with
    | nil => cases hbs
    | cons b bs =>
      obtain ⟨hb, hrest⟩ := List.cons.inj hbs
      rw [List.map_cons, List.map_cons, h x b hb, ih hrest]

/-- The steps fail exactly if one of them does, with the error of the first that does. -/
theorem mapM_eq_error_iff {f : α → Except ε β} {xs : List α} {e : ε} :
    xs.mapM f = .error e ↔ ∃ before x after, xs = before ++ x :: after ∧
      (∀ y ∈ before, ∃ b, f y = .ok b) ∧ f x = .error e := by
  induction xs with
  | nil => simp [pure, Except.pure]
  | cons x xs ih =>
    cases h : f x with
    | error e' =>
      rw [mapM_cons_error h]
      constructor
      · intro heq
        rw [Except.error.inj heq] at h
        exact ⟨[], x, xs, rfl, by simp, h⟩
      · intro hfails
        obtain ⟨before, y, after, hxs, hbefore, hy⟩ := hfails
        -- The first item fails, so there is none before the one that is reported.
        cases before with
        | nil =>
          obtain ⟨rfl, rfl⟩ := List.cons.inj hxs
          rw [h] at hy
          cases hy
          rfl
        | cons z before =>
          obtain ⟨rfl, rfl⟩ := List.cons.inj hxs
          obtain ⟨b, hb⟩ := hbefore x List.mem_cons_self
          rw [h] at hb
          cases hb
    | ok b =>
      rw [mapM_cons_ok h]
      have hmap : (xs.mapM f).map (b :: ·) = .error e ↔ xs.mapM f = .error e := by
        cases xs.mapM f <;> simp [Except.map]
      rw [hmap, ih]
      constructor
      · intro hfails
        obtain ⟨before, y, after, rfl, hbefore, hy⟩ := hfails
        refine ⟨x :: before, y, after, rfl, ?_, hy⟩
        intro z hz
        rcases List.mem_cons.mp hz with hz | hz
        · rw [hz]
          exact ⟨b, h⟩
        · exact hbefore z hz
      · intro hfails
        obtain ⟨before, y, after, hxs, hbefore, hy⟩ := hfails
        -- The first item succeeds, so it is among those before the one that is reported.
        cases before with
        | nil =>
          obtain ⟨rfl, rfl⟩ := List.cons.inj hxs
          rw [h] at hy
          cases hy
        | cons z before =>
          obtain ⟨rfl, rfl⟩ := List.cons.inj hxs
          exact ⟨before, y, after, rfl, fun w hw => hbefore w (List.mem_cons_of_mem _ hw), hy⟩

/-- All steps succeed if none fails. -/
theorem exists_mapM_eq_ok {f : α → Except ε β} {xs : List α}
    (h : ∀ x ∈ xs, ∃ b, f x = .ok b) : ∃ bs, xs.mapM f = .ok bs := by
  cases hxs : xs.mapM f with
  | ok bs => exact ⟨bs, rfl⟩
  | error e =>
    obtain ⟨before, x, after, rfl, -, hx⟩ := mapM_eq_error_iff.mp hxs
    obtain ⟨b, hb⟩ := h x (by simp)
    rw [hx] at hb
    cases hb

end SchemaSummary
