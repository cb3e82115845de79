import Mathlib.Data.List.Nodup
import SchemaSummary.Generation.Selection

/-! # Selected files

  Which descriptors a request selects, and in which order: the first descriptor of every wanted
  name, as the descriptors are given.

  A name without a descriptor is the only reason not to select anything. So it does not matter in
  which order names are asked for, or how often, and asking for all of them always succeeds.
-/

namespace SchemaSummary

/-! ## First descriptors -/

/-- The descriptors that `firstDescriptors` keeps are the first ones of their names. -/
theorem mem_firstDescriptors_iff {files : List FileDescriptor} {f : FileDescriptor} :
    f ∈ firstDescriptors files ↔ files.find? (fun g => g.path == f.path) = some f := by
  induction files with
  | nil => simp [firstDescriptors]
  | cons g files ih =>
    rw [firstDescriptors, List.mem_cons, List.mem_filter, List.find?_cons]
    -- Only the first descriptor itself is kept of those that have its name.
    by_cases h : g.path = f.path
    · simp [h, eq_comm]
    · have hne : f ≠ g := fun heq => h (heq ▸ rfl)
      have hbeq : (g.path == f.path) = false := beq_false_of_ne h
      simp [hbeq, hne, ih, Ne.symm h]

/-- First descriptors come in the order in which their names do. -/
theorem pairwise_idxOf_firstDescriptors (files : List FileDescriptor) :
    (firstDescriptors files).Pairwise fun f g =>
      (files.map FileDescriptor.path).idxOf f.path <
        (files.map FileDescriptor.path).idxOf g.path := by
  induction files with
  | nil => exact List.Pairwise.nil
  | cons g files ih =>
    rw [firstDescriptors, List.pairwise_cons]
    constructor
    · intro f hf
      have hne : f.path ≠ g.path := bne_iff_ne.mp (List.mem_filter.mp hf).2
      simp [List.idxOf_cons, beq_false_of_ne hne.symm]
    · -- The other names all come one place later than in the rest.
      rw [List.pairwise_filter]
      refine ih.imp ?_
      intro f f' hlt hf hf'
      have hne : f.path ≠ g.path := bne_iff_ne.mp hf
      have hne' : f'.path ≠ g.path := bne_iff_ne.mp hf'
      simpa [List.idxOf_cons, beq_false_of_ne hne.symm, beq_false_of_ne hne'.symm] using hlt

/-- The places in a list of descriptors that no descriptor of the same name stands before. -/
def firstPlaces (files : List FileDescriptor) : List (FileDescriptor × Nat) :=
  files.zipIdx.filter fun p => ∀ g ∈ files.take p.2, g.path ≠ p.1.path

theorem firstPlaces_cons (g : FileDescriptor) (files : List FileDescriptor) :
    firstPlaces (g :: files) = (g, 0) ::
      ((firstPlaces files).filter fun p => p.1.path != g.path).map fun p => (p.1, p.2 + 1) := by
  rw [firstPlaces, List.zipIdx_cons, List.filter_cons_of_pos (by simp), List.zipIdx_succ,
    List.filter_map, firstPlaces, List.filter_filter]
  congr 2
  apply List.filter_congr
  intro p _
  -- One place further on, there is one more descriptor before.
  rw [Bool.eq_iff_iff]
  simp [ne_comm]

/-- First descriptors are those at first places. -/
theorem firstDescriptors_eq (files : List FileDescriptor) :
    firstDescriptors files = (firstPlaces files).map Prod.fst := by
  induction files with
  | nil => rfl
  | cons g files ih =>
    rw [firstDescriptors, ih, firstPlaces_cons, List.filter_map, List.map_cons, List.map_map]
    rfl

namespace Request

/-! ## Selection -/

/-- The descriptors that a request selects if it describes all files that it wants. -/
def selected (q : Request) : List FileDescriptor := (firstDescriptors q.files).filter q.wants

/-- The first descriptor of a name. -/
def descriptor? (q : Request) (name : String) : Option FileDescriptor :=
  q.files.find? fun f => f.path == name

theorem descriptor?_path {q : Request} {name : String} {f : FileDescriptor}
    (h : q.descriptor? name = some f) : f.path = name := by
  simpa using List.find?_some h

theorem describes_iff {q : Request} {name : String} :
    q.describes name = true ↔ ∃ f, q.descriptor? name = some f := by
  rw [describes, descriptor?, ← Option.isSome_iff_exists, List.isSome_find?]

theorem describes_eq_true_iff {q : Request} {name : String} :
    q.describes name = true ↔ ∃ f ∈ q.files, f.path = name := by
  simp [describes]

theorem describes_eq_false_iff {q : Request} {name : String} :
    q.describes name = false ↔ ∀ f ∈ q.files, f.path ≠ name := by
  simp [describes]

/-- Exactly the first descriptors of wanted names are selected. -/
theorem mem_selected_iff {q : Request} {f : FileDescriptor} :
    f ∈ q.selected ↔ f.path ∈ q.filesToGenerate ∧ q.descriptor? f.path = some f := by
  rw [selected, List.mem_filter, mem_firstDescriptors_iff, wants, List.contains_iff_mem,
    descriptor?, and_comm]

/-- Selected descriptors come in the order in which their names do. -/
theorem pairwise_selected (q : Request) :
    q.selected.Pairwise fun f g => (q.files.map FileDescriptor.path).idxOf f.path <
      (q.files.map FileDescriptor.path).idxOf g.path :=
  (pairwise_idxOf_firstDescriptors q.files).filter _

/-- No two selected descriptors have one name. -/
theorem nodup_map_path_selected (q : Request) : (q.selected.map FileDescriptor.path).Nodup := by
  rw [List.Nodup, List.pairwise_map]
  refine q.pairwise_selected.imp ?_
  intro f g hlt heq
  rw [heq] at hlt
  exact Nat.lt_irrefl _ hlt

/-- The names of selected files are the wanted ones. -/
theorem mem_map_path_selected_iff {q : Request}
    (hall : ∀ n ∈ q.filesToGenerate, q.describes n = true) (n : String) :
    n ∈ q.selected.map FileDescriptor.path ↔ n ∈ q.filesToGenerate := by
  constructor
  · intro hn
    obtain ⟨f, hf, rfl⟩ := List.mem_map.mp hn
    exact (mem_selected_iff.mp hf).1
  · intro hn
    obtain ⟨f, hf⟩ := describes_iff.mp (hall n hn)
    have hpath := descriptor?_path hf
    exact List.mem_map.mpr ⟨f, mem_selected_iff.mpr ⟨hpath ▸ hn, hpath.symm ▸ hf⟩, hpath⟩

theorem select_eq_ok_iff {q : Request} {files : List FileDescriptor} :
    q.select = .ok files ↔
      (∀ n ∈ q.filesToGenerate, q.describes n = true) ∧ files = q.selected := by
  unfold select
  cases h : q.filesToGenerate.find? fun name => !q.describes name with
  | none =>
    rw [List.find?_eq_none] at h
    have hall : ∀ n ∈ q.filesToGenerate, q.describes n = true := by simpa using h
    simp only [Except.ok.injEq]
    exact ⟨fun heq => ⟨hall, heq.symm⟩, fun heq => heq.2.symm⟩
  | some n =>
    have hn : q.describes n = false := by simpa using List.find?_some h
    simp only [reduceCtorEq, false_iff, not_and]
    intro hall
    rw [hall n (List.mem_of_find?_eq_some h)] at hn
    cases hn

/-- The first name without a descriptor is reported. -/
theorem select_eq_error_iff {q : Request} {e : Error} :
    q.select = .error e ↔ ∃ before name after, q.filesToGenerate = before ++ name :: after ∧
      (∀ n ∈ before, q.describes n = true) ∧ q.describes name = false ∧
      e = .missingDescriptor name := by
  unfold select
  cases h : q.filesToGenerate.find? fun name => !q.describes name with
  | none =>
    rw [List.find?_eq_none] at h
    simp only [reduceCtorEq, false_iff]
    intro herror
    obtain ⟨before, name, after, heq, -, hname, -⟩ := herror
    exact h name (by simp [heq]) (by simp [hname])
  | some n =>
    obtain ⟨hn, before, after, heq, hbefore⟩ := List.find?_eq_some_iff_append.mp h
    have hn : q.describes n = false := by simpa using hn
    have hbefore : ∀ m ∈ before, q.describes m = true := by simpa using hbefore
    simp only [Except.error.injEq]
    constructor
    · intro herror
      exact ⟨before, n, after, heq, hbefore, hn, herror.symm⟩
    · intro herror
      obtain ⟨before', n', after', heq', hbefore', hn', rfl⟩ := herror
      -- Both are the first name that is not described.
      have hfind : q.filesToGenerate.find? (fun name => !q.describes name) = some n' := by
        refine List.find?_eq_some_iff_append.mpr ⟨by simp [hn'], before', after', heq', ?_⟩
        simpa using hbefore'
      rw [h] at hfind
      rw [Option.some.inj hfind]

/-! ## First descriptors of wanted names -/

/-- What it means that `files` are the first descriptors of the wanted names. -/
structure SelectsFirst (q : Request) (files : List FileDescriptor) : Prop where
  /-- They stand at the places where a wanted name comes first, in the order of these places. -/
  places : files =
    ((firstPlaces q.files).filter fun p => p.1.path ∈ q.filesToGenerate).map Prod.fst
  /-- They are part of what is described, in the order in which it is. -/
  sublist : files.Sublist q.files
  /-- No name is there twice. -/
  nodup : (files.map FileDescriptor.path).Nodup
  /-- Every wanted name is there once, and no other name is. -/
  count_path : ∀ n, (files.map FileDescriptor.path).count n =
    if n ∈ q.filesToGenerate then 1 else 0

theorem selected_eq (q : Request) : q.selected =
    ((firstPlaces q.files).filter fun p => p.1.path ∈ q.filesToGenerate).map Prod.fst := by
  -- Which descriptor is the first of its name does not depend on which names are wanted.
  rw [selected, firstDescriptors_eq, List.filter_map]
  congr 1
  apply List.filter_congr
  intro p _
  simp [wants]

theorem sublist_selected (q : Request) : q.selected.Sublist q.files := by
  have hplaces : ((firstPlaces q.files).map Prod.fst).Sublist (q.files.zipIdx.map Prod.fst) :=
    List.filter_sublist.map Prod.fst
  rw [← firstDescriptors_eq, List.zipIdx_map_fst] at hplaces
  exact List.filter_sublist.trans hplaces

theorem selectsFirst_selected {q : Request}
    (hall : ∀ n ∈ q.filesToGenerate, q.describes n = true) : q.SelectsFirst q.selected where
  places := q.selected_eq
  sublist := q.sublist_selected
  nodup := q.nodup_map_path_selected
  count_path n := by
    by_cases hn : n ∈ q.filesToGenerate
    · rw [if_pos hn]
      exact List.count_eq_one_of_mem q.nodup_map_path_selected
        ((mem_map_path_selected_iff hall n).mpr hn)
    · rw [if_neg hn, List.count_eq_zero]
      rwa [mem_map_path_selected_iff hall]

theorem select_eq_ok_iff_selectsFirst {q : Request} {files : List FileDescriptor} :
    q.select = .ok files ↔
      (∀ n ∈ q.filesToGenerate, ∃ f ∈ q.files, f.path = n) ∧ q.SelectsFirst files := by
  rw [select_eq_ok_iff]
  simp only [← describes_eq_true_iff]
  apply and_congr_right
  intro hall
  constructor
  · intro h
    rw [h]
    exact selectsFirst_selected hall
  · intro h
    rw [q.selected_eq]
    exact h.places

/-- Selection succeeds exactly if every wanted name is described. -/
theorem exists_select_iff {q : Request} : (∃ files, q.select = .ok files) ↔
    ∀ n ∈ q.filesToGenerate, ∃ f ∈ q.files, f.path = n := by
  simp only [← describes_eq_true_iff]
  constructor
  · intro h
    obtain ⟨files, hfiles⟩ := h
    exact (select_eq_ok_iff.mp hfiles).1
  · intro h
    exact ⟨q.selected, select_eq_ok_iff.mpr ⟨h, rfl⟩⟩

/-- Only what is wanted counts, not in which order or how often it is asked for. -/
theorem select_eq_ok_congr {q q' : Request} (hfiles : q'.files = q.files)
    (hnames : ∀ n, n ∈ q'.filesToGenerate ↔ n ∈ q.filesToGenerate) {files : List FileDescriptor} :
    q'.select = .ok files ↔ q.select = .ok files := by
  have hdescribes : q'.describes = q.describes := by
    funext n
    rw [describes, describes, hfiles]
  have hwants : q'.wants = q.wants := by
    funext f
    rw [Bool.eq_iff_iff]
    simp [wants, hnames]
  simp only [select_eq_ok_iff, hnames, hdescribes, selected, hfiles, hwants]

/-- **Selection** fails exactly if a wanted name is described nowhere, and then reports the first
    one. Otherwise it gives the first descriptor of every wanted name.

    * Two requests that describe the same files and want the same names, in any order and any
      number of times, have the same files selected unless both fail.
    * A request for all that is described does not fail, and so neither does one for a whole
      descriptor set. -/
theorem select_first_descriptors (q : Request) :
    (∀ e, q.select = .error e ↔ ∃ before name after,
        q.filesToGenerate = before ++ name :: after ∧
          (∀ n ∈ before, ∃ f ∈ q.files, f.path = n) ∧ (∀ f ∈ q.files, f.path ≠ name) ∧
          e = .missingDescriptor name) ∧
      (∀ files, q.select = .ok files ↔
        (∀ n ∈ q.filesToGenerate, ∃ f ∈ q.files, f.path = n) ∧ q.SelectsFirst files) ∧
      (∀ q' : Request, q'.files = q.files →
        (∀ n, n ∈ q'.filesToGenerate ↔ n ∈ q.filesToGenerate) →
        (∃ files, q.select = .ok files ∧ q'.select = .ok files) ∨
          ∃ e e', q.select = .error e ∧ q'.select = .error e') ∧
      ((∀ n, n ∈ q.filesToGenerate ↔ ∃ f ∈ q.files, f.path = n) →
        ∃ files, q.select = .ok files) ∧
      ∀ (set : DescriptorSet) (parameter : Option String),
        ∃ files, (set.request [] parameter).select = .ok files := by
  refine ⟨?_, fun files => select_eq_ok_iff_selectsFirst, ?_, ?_, ?_⟩
  · intro e
    simp only [select_eq_error_iff, describes_eq_true_iff, describes_eq_false_iff]
  · intro q' hfiles hnames
    cases hselect : q.select with
    | ok files => exact .inl ⟨files, rfl, (select_eq_ok_congr hfiles hnames).mpr hselect⟩
    | error e =>
      right
      cases hselect' : q'.select with
      | ok files =>
        rw [select_eq_ok_congr hfiles hnames, hselect] at hselect'
        cases hselect'
      | error e' => exact ⟨e, e', rfl, rfl⟩
  · intro hnames
    exact exists_select_iff.mpr fun n hn => (hnames n).mp hn
  · intro set parameter
    apply exists_select_iff.mpr
    intro n hn
    -- Without names of its own the request wants those of the descriptors.
    exact List.mem_map.mp hn

end Request

/-! ### Two descriptors of one name -/

namespace Described

def first : FileDescriptor := { name := some "a.proto", package := some "first" }

def other : FileDescriptor := { name := some "b.proto" }

def second : FileDescriptor := { name := some "a.proto", package := some "second" }

/-- A request for the given files, one of which is described twice. -/
def request (names : List String) : Request where
  filesToGenerate := names
  files := [first, other, second]

end Described

open Described in
/-- The second descriptor of a name is not selected, and it stands in for no other name. -/
theorem select_described_twice :
    (request ["b.proto", "a.proto"]).select = .ok [first, other] ∧
      (request ["a.proto", "b.proto", "a.proto"]).select = .ok [first, other] ∧
      (request ["a.proto", "c.proto", "d.proto"]).select = .error (.missingDescriptor "c.proto") := by
  have hplain : (request ["b.proto", "a.proto"]).select = .ok [first, other] := rfl
  have hnames : ∀ n, n ∈ (request ["a.proto", "b.proto", "a.proto"]).filesToGenerate ↔
      n ∈ (request ["b.proto", "a.proto"]).filesToGenerate := by
    simp [request, or_comm]
  refine ⟨hplain, ?_, ?_⟩
  · obtain ⟨files, hfiles, hsame⟩ | ⟨e, _, he, -⟩ :=
      (Request.select_first_descriptors (request ["b.proto", "a.proto"])).2.2.1
        (request ["a.proto", "b.proto", "a.proto"]) rfl hnames
    · rw [hplain] at hfiles
      rw [hsame, hfiles]
    · rw [hplain] at he
      cases he
  · rw [(Request.select_first_descriptors (request ["a.proto", "c.proto", "d.proto"])).1]
    exact ⟨["a.proto"], "c.proto", ["d.proto"], rfl, by decide, by decide, rfl⟩

end SchemaSummary
