import Mathlib.Logic.Function.Basic
import SchemaSummary.Disk.Basic
import SchemaSummary.Proofs.Disk.Paths
import SchemaSummary.Proofs.Generation.Sequence

/-! # The files of a disk

  A disk seen as the contents of its files by their places, and what the operations do to them.

  `resolve` tells from the text of a path where it leads. An operation on a path that succeeds is
  one on that place: making directories leaves all files as they are, and writing replaces one of
  them. So a list of files written one after the other is a list of updates, of which the last one
  at a place counts.
-/

namespace SchemaSummary

/-- The contents of files by their places. -/
abbrev FileTree := Place → Option (List UInt8)

namespace Disk

/-- The files of a disk. -/
def tree (d : Disk) : FileTree := fun place =>
  match d.lookup place with
  | some (.file content) => some content
  | some .directory | none => none

/-! ## Where paths lead -/

/-- The place to which a step leads from a directory. -/
def walk (place : Place) (step : String) : Place :=
  if step = ".." then place.dropLast else place ++ [step]

/-- The place to which a path leads if every step does lead somewhere. -/
def resolve (d : Disk) (path : String) : Place := (steps path).foldl walk (d.start path)

theorem eq_walk_of_stepTo {place next : Place} {step : String} (h : stepTo place step = .ok next) :
    next = walk place step := by
  unfold stepTo at h
  unfold walk
  split at h
  · rename_i hup
    rw [if_pos hup]
    exact (Except.ok.inj h).symm
  · rename_i hup
    rw [if_neg hup]
    split at h
    · cases h
    · exact (Except.ok.inj h).symm

theorem eq_foldl_of_follow {d : Disk} {place next : Place} {steps : List String}
    (h : d.follow place steps = .ok next) : next = steps.foldl walk place := by
  induction steps generalizing place with
  | nil => exact (Except.ok.inj h).symm
  | cons step steps ih =>
    unfold follow at h
    cases hstep : stepTo place step with
    | error fault =>
      rw [hstep] at h
      cases h
    | ok middle =>
      rw [hstep] at h
      rw [List.foldl_cons, ← eq_walk_of_stepTo hstep]
      -- Only a directory is gone through.
      cases hmiddle : d.lookup middle with
      | none => simp [hmiddle] at h
      | some entry =>
        cases entry with
        | file content => simp [hmiddle] at h
        | directory =>
          simp only [hmiddle] at h
          exact ih h

/-- A path that can be located leads where its text says. -/
theorem eq_resolve_of_locate {d : Disk} {path : String} {place : Place}
    (h : d.locate (d.start path) (steps path) = .ok place) : place = d.resolve path := by
  unfold locate at h
  unfold resolve
  cases hlast : (steps path).getLast? with
  | none =>
    rw [hlast] at h
    rw [List.getLast?_eq_none_iff.mp hlast]
    exact (Except.ok.inj h).symm
  | some last =>
    rw [hlast] at h
    obtain ⟨front, hfront⟩ := List.getLast?_eq_some_iff.mp hlast
    rw [hfront, List.dropLast_concat] at h
    cases hfollow : d.follow (d.start path) front with
    | error fault =>
      rw [hfollow] at h
      cases h
    | ok directory =>
      rw [hfollow] at h
      rw [hfront, List.foldl_append, ← eq_foldl_of_follow hfollow]
      exact eq_walk_of_stepTo h

theorem resolve_congr {d d' : Disk} (h : d'.workingDirectory = d.workingDirectory)
    (path : String) : d'.resolve path = d.resolve path := by
  unfold resolve start
  rw [h]

/-- Steps that do not lead upwards go on below. -/
theorem foldl_walk {steps : List String} (h : ".." ∉ steps) (place : Place) :
    steps.foldl walk place = place ++ steps := by
  induction steps generalizing place with
  | nil => simp
  | cons step steps ih =>
    rw [List.mem_cons, not_or] at h
    rw [List.foldl_cons, ih h.2, walk, if_neg (Ne.symm h.1)]
    simp

/-- A path that does not escape leads below the directory with which it is joined, along its own
    steps. -/
theorem resolve_join (d : Disk) {dir path : String} (h : Path.escapes path.toList = false) :
    d.resolve (String.ofList (Path.join dir.toList path.toList)) =
      d.resolve dir ++ steps path := by
  have hrelative := Path.isAbsolute_of_not_escapes h
  have hstart : d.start (String.ofList (Path.join dir.toList path.toList)) = d.start dir := by
    unfold start
    rw [String.toList_ofList, Path.isAbsolute_join _ hrelative]
  have hsteps : steps (String.ofList (Path.join dir.toList path.toList)) =
      steps dir ++ steps path := by
    unfold steps
    rw [String.toList_ofList, Path.steps_join _ hrelative, List.map_append]
  have hup : ".." ∉ steps path := by
    intro hmem
    obtain ⟨part, hpart, heq⟩ := List.mem_map.mp hmem
    have hupward : part = Path.upward := by
      rw [← String.toList_ofList (l := part), heq]
      rfl
    exact (Path.not_escapes_iff.mp h).2 (Path.upward_mem_steps_iff.mp (hupward ▸ hpart))
  unfold resolve
  rw [hstart, hsteps, List.foldl_append, foldl_walk hup]

/-! ## What operations do to the files -/

/-- Disks with the same files, which may differ in their directories. -/
structure SameFiles (d d' : Disk) : Prop where
  tree : d'.tree = d.tree
  workingDirectory : d'.workingDirectory = d.workingDirectory

theorem SameFiles.refl (d : Disk) : SameFiles d d := ⟨rfl, rfl⟩

theorem SameFiles.trans {d₁ d₂ d₃ : Disk} (h : SameFiles d₁ d₂) (h' : SameFiles d₂ d₃) :
    SameFiles d₁ d₃ :=
  ⟨h'.tree.trans h.tree, h'.workingDirectory.trans h.workingDirectory⟩

/-- A directory that is made where nothing is leaves the files as they are. -/
theorem tree_put_directory {d : Disk} {place : Place} (h : d.lookup place = none) :
    (d.put place .directory).tree = d.tree := by
  have hne : place ≠ [] := by
    intro heq
    rw [heq] at h
    cases h
  funext other
  unfold tree
  by_cases hother : other = place
  · rw [hother, lookup_put_self d _ hne, h]
  · rw [lookup_put_ne d _ hother]

theorem tree_put_file (d : Disk) {place : Place} (h : place ≠ []) (content : List UInt8) :
    (d.put place (.file content)).tree = Function.update d.tree place (some content) := by
  funext other
  unfold tree
  by_cases hother : other = place
  · rw [hother, lookup_put_self d _ h, Function.update_self]
  · rw [lookup_put_ne d _ hother, Function.update_of_ne hother]

theorem sameFiles_of_makeDirectory {d d' : Disk} {path : String}
    (h : d.makeDirectory path = .ok d') : SameFiles d d' := by
  unfold makeDirectory at h
  obtain ⟨-, -, h⟩ := bind_eq_ok_iff.mp h
  obtain ⟨place, -, h⟩ := bind_eq_ok_iff.mp h
  cases hplace : d.lookup place with
  | some entry =>
    rw [hplace] at h
    cases h
  | none =>
    rw [hplace] at h
    cases h
    exact ⟨tree_put_directory hplace, rfl⟩

/-- Writing a file replaces what is at its path. -/
theorem tree_of_write {d d' : Disk} {path : String} {content : List UInt8}
    (h : d.write path content = .ok d') :
    d'.tree = Function.update d.tree (d.resolve path) (some content) ∧
      d'.workingDirectory = d.workingDirectory := by
  unfold write at h
  obtain ⟨-, -, h⟩ := bind_eq_ok_iff.mp h
  obtain ⟨place, hlocate, h⟩ := bind_eq_ok_iff.mp h
  rw [← eq_resolve_of_locate hlocate]
  by_cases hroot : place = []
  · -- The root is a directory.
    rw [hroot] at h
    cases h
  · cases hplace : d.lookup place with
    | none =>
      simp only [hplace] at h
      split at h
      · cases h
      · cases h
        exact ⟨tree_put_file d hroot content, rfl⟩
    | some entry =>
      cases entry with
      | directory => simp [hplace] at h
      | file old =>
        simp only [hplace] at h
        split at h
        · cases h
        · cases h
          exact ⟨tree_put_file d hroot content, rfl⟩

/-! ## Making directories -/

/-- A step of a run goes on with the result and the state that the one before it leaves. -/
theorem run_bind {σ α β : Type} {x : StateM σ α} {a : α} {s s' : σ} (h : x.run s = (a, s'))
    (f : α → StateM σ β) : (x >>= f).run s = (f a).run s' := by
  rw [StateT.run_bind, h]
  rfl

theorem run_makeDirectory (d : Disk) (path : String) :
    (access.makeDirectory path).run d =
      match d.makeDirectory path with
      | .ok made => (.ok (), made)
      | .error fault => (.error fault, d) := rfl

theorem run_write (d : Disk) (path : String) (content : List UInt8) :
    (access.write path content).run d =
      match d.write path content with
      | .ok written => (.ok (), written)
      | .error fault => (.error fault, d) := rfl

theorem sameFiles_ensureDirectory {d d' : Disk} {path : String} {r : Except DiskFault Unit}
    (h : (access.ensureDirectory path).run d = (r, d')) : SameFiles d d' := by
  unfold FileAccess.ensureDirectory at h
  cases hmake : d.makeDirectory path with
  | ok made =>
    have hrun : (access.makeDirectory path).run d = (.ok (), made) := by
      rw [run_makeDirectory, hmake]
    rw [run_bind hrun] at h
    cases h
    exact sameFiles_of_makeDirectory hmake
  | error fault =>
    have hrun : (access.makeDirectory path).run d = (.error fault, d) := by
      rw [run_makeDirectory, hmake]
    have hcheck : (access.isDirectory path).run d = (d.isDirectory path, d) := rfl
    rw [run_bind hrun] at h
    simp only [run_bind hcheck] at h
    -- Looking for a directory changes nothing.
    cases hdir : d.isDirectory path with
    | true =>
      rw [hdir] at h
      cases h
      exact .refl d
    | false =>
      rw [hdir] at h
      cases h
      exact .refl d

theorem sameFiles_ensureDirectories {paths : List String} {d d' : Disk}
    {r : Except DiskFault Unit} (h : (access.ensureDirectories paths).run d = (r, d')) :
    SameFiles d d' := by
  induction paths generalizing d d' r with
  | nil =>
    cases h
    exact .refl d
  | cons path above ih =>
    unfold FileAccess.ensureDirectories at h
    obtain ⟨⟨r₁, d₁⟩, hfirst⟩ : ∃ p, (access.ensureDirectory path).run d = p := ⟨_, rfl⟩
    rw [run_bind hfirst] at h
    have hsame := sameFiles_ensureDirectory hfirst
    split at h
    · -- Something above is missing: it is made first, and then the directory is tried again.
      obtain ⟨⟨r₂, d₂⟩, habove⟩ : ∃ p, (access.ensureDirectories above).run d₁ = p := ⟨_, rfl⟩
      rw [run_bind habove] at h
      have hmade := hsame.trans (ih habove)
      split at h
      · cases h
        exact hmade
      · exact hmade.trans (sameFiles_ensureDirectory h)
    · cases h
      exact hsame

/-- Making directories leaves the files as they are, even if it does not succeed. -/
theorem sameFiles_createDirectories {d d' : Disk} {path : String} {r : Except DiskFault Unit}
    (h : (access.createDirectories path).run d = (r, d')) : SameFiles d d' :=
  sameFiles_ensureDirectories h

/-! ## Writing several files -/

/-- The directories above a path. -/
def parentOf (path : String) : String := String.ofList (Path.parent path.toList)

/-- Files are written at their paths one after the other, each behind the directories above it,
    and every operation succeeds. -/
inductive Stores : Disk → List (String × List UInt8) → Disk → Prop where
  | nil (d : Disk) : Stores d [] d
  | cons {d made written after : Disk} {path : String} {content : List UInt8}
      {rest : List (String × List UInt8)}
      (hmade : (access.createDirectories (parentOf path)).run d = (.ok (), made))
      (hwritten : made.write path content = .ok written) (hrest : Stores written rest after) :
      Stores d ((path, content) :: rest) after

/-- Files after another one is written; what was at its place before is gone. -/
def store (d : Disk) (files : FileTree) (file : String × List UInt8) : FileTree :=
  Function.update files (d.resolve file.1) (some file.2)

/-- One file that is written behind its directories is one update. -/
theorem tree_of_store {d made written : Disk} {path : String} {content : List UInt8}
    (hmade : (access.createDirectories (parentOf path)).run d = (.ok (), made))
    (hwritten : made.write path content = .ok written) :
    written.tree = d.store d.tree (path, content) ∧
      written.workingDirectory = d.workingDirectory := by
  have hsame := sameFiles_createDirectories hmade
  obtain ⟨htree, hdir⟩ := tree_of_write hwritten
  rw [hsame.tree, resolve_congr hsame.workingDirectory] at htree
  exact ⟨htree, hdir.trans hsame.workingDirectory⟩

/-- Files that are written one after the other are updates one after the other. -/
theorem Stores.tree {d after : Disk} {files : List (String × List UInt8)}
    (h : Stores d files after) : after.tree = files.foldl d.store d.tree := by
  induction h with
  | nil d => rfl
  | @cons d made written after path content rest hmade hwritten hrest ih =>
    obtain ⟨htree, hdir⟩ := tree_of_store hmade hwritten
    have hstore : written.store = d.store := by
      funext tree file
      show Function.update tree (written.resolve file.1) _ = _
      rw [resolve_congr hdir]
      rfl
    rw [ih, hstore, htree]
    rfl

/-- Only the places of the files are written. -/
theorem foldl_store_eq (d : Disk) {files : List (String × List UInt8)} {place : Place}
    (h : ∀ file ∈ files, d.resolve file.1 ≠ place) (tree : FileTree) :
    files.foldl d.store tree place = tree place := by
  induction files generalizing tree with
  | nil => rfl
  | cons file files ih =>
    rw [List.foldl_cons, ih fun f hf => h f (List.mem_cons_of_mem _ hf)]
    exact Function.update_of_ne (Ne.symm (h file List.mem_cons_self)) _ _

end Disk

end SchemaSummary
