import SchemaSummary.Generation.Name
import SchemaSummary.Proofs.Text.Cuts

/-! # Import paths

  The import path of a schema file can be configured, or the file itself can declare it. What is
  configured is taken as it stands; what is declared ends at a semicolon, and is none if nothing
  stands before that.

  * A path that is not empty and has no semicolon says the same in both places.
  * Any other path says the same only if it changes nothing, as for a schema file that lies
    directly below it.
-/

namespace SchemaSummary

/-! ## Output names from both sources -/

/-- The schema file with `path` as the import path that it declares. -/
def FileDescriptor.declaring (f : FileDescriptor) (path : String) : FileDescriptor :=
  { f with options := some { goPackage := some path } }

@[simp] theorem FileDescriptor.path_declaring (f : FileDescriptor) (path : String) :
    (f.declaring path).path = f.path := rfl

@[simp] theorem FileDescriptor.stem_declaring (f : FileDescriptor) (path : String) :
    (f.declaring path).stem = f.stem := rfl

/-- What a file declares ends before the first semicolon, and nothing there is no path. -/
theorem FileDescriptor.declaredImportPath?_declaring (f : FileDescriptor) (path : String) :
    (f.declaring path).declaredImportPath? =
      if (Text.cut ';' path.toList).1 = [] then none
      else some (String.ofList (Text.cut ';' path.toList).1) := by
  simp [declaredImportPath?, declaring]

namespace Config

/-- Different output names stay different when the module is removed, and so do their errors. -/
theorem leaveModule_inj (c : Config) {a b : List Char} :
    c.leaveModule a = c.leaveModule b ↔ a = b := by
  refine ⟨?_, congrArg c.leaveModule⟩
  unfold leaveModule
  cases c.moduleName with
  | none =>
    intro h
    exact String.ofList_injective (Except.ok.inj h)
  | some m =>
    intro h
    cases ha : (m.toList ++ ['/']).isPrefixOf? a <;>
      cases hb : (m.toList ++ ['/']).isPrefixOf? b <;>
      simp only [ha, hb, Except.ok.injEq, Except.error.injEq, Error.outsideModule.injEq,
        String.ofList_inj, and_true, reduceCtorEq] at h
    · exact h
    · rw [← List.isPrefixOf?_eq_some_iff_append_eq.mp ha,
        ← List.isPrefixOf?_eq_some_iff_append_eq.mp hb, h]

/-- A configured import path is the one that counts, as it stands. -/
theorem importName_set (c : Config) (f : FileDescriptor) (path : String) :
    (c.set (.importPath f.path path)).importName f = placeBelow path.toList f.stem := by
  simp [importName, importPath?, set]

/-- A declared import path counts where none is configured. -/
theorem importName_declaring {c : Config} {f : FileDescriptor}
    (hnone : c.importPaths[f.path]? = none) (path : String) :
    c.importName (f.declaring path) =
      if (Text.cut ';' path.toList).1 = [] then f.stem
      else placeBelow (Text.cut ';' path.toList).1 f.stem := by
  unfold importName importPath?
  rw [FileDescriptor.path_declaring, hnone, FileDescriptor.declaredImportPath?_declaring]
  by_cases hcut : (Text.cut ';' path.toList).1 = []
  · simp [hcut]
  · simp [hcut]

end Config

/-! ## When the sources agree -/

theorem placeBelow_eq_iff {path path' name : List Char} :
    placeBelow path name = placeBelow path' name ↔
      Text.trimEndOf '/' path = Text.trimEndOf '/' path' := by
  simp [placeBelow]

/-- The part before a semicolon names the same place as the whole only if there is no
    semicolon. -/
theorem placeBelow_cut_iff {path name : List Char} :
    placeBelow path name = placeBelow (Text.cut ';' path).1 name ↔ ';' ∉ path := by
  rw [placeBelow_eq_iff]
  constructor
  · intro h hmem
    obtain ⟨before, after, rfl, hbefore⟩ := List.eq_append_cons_of_mem hmem
    rw [Text.cut_append_cons hbefore, Text.trimEndOf_append_cons (by decide)] at h
    -- Only slashes are trimmed, so the semicolon stays on one side and is missing on the other.
    have hsemicolon : ';' ∈ Text.trimEndOf '/' before := by
      rw [← h]
      simp
    exact hbefore (Text.mem_of_mem_trimEndOf hsemicolon)
  · intro h
    rw [Text.cut_of_notMem h]

/-- **Import paths from both sources** lead to the same output name, or to the same error, exactly
    if the path is not empty and has no semicolon, or else if nothing stands before its first
    semicolon and the schema file lies directly below it. -/
theorem outputStem_sources_iff {c : Config} {f : FileDescriptor} (hpaths : c.paths = .importPath)
    (hnone : c.importPaths[f.path]? = none) (path : String) :
    (c.set (.importPath f.path path)).outputStem f = c.outputStem (f.declaring path) ↔
      (path ≠ "" ∧ ';' ∉ path.toList) ∨
        ((Text.cut ';' path.toList).1 = [] ∧ f.stem = placeBelow path.toList f.stem) := by
  have hset : (c.set (.importPath f.path path)).outputStem f =
      c.leaveModule (placeBelow path.toList f.stem) := by
    rw [← Config.importName_set c f path]
    unfold Config.outputStem
    rw [show (c.set (.importPath f.path path)).paths = .importPath from hpaths]
    rfl
  have hdeclared : c.outputStem (f.declaring path) =
      c.leaveModule (c.importName (f.declaring path)) := by
    unfold Config.outputStem
    rw [hpaths]
  rw [hset, hdeclared, Config.leaveModule_inj, Config.importName_declaring hnone]
  by_cases hcut : (Text.cut ';' path.toList).1 = []
  · -- An empty path declares nothing, and neither does one that begins with a semicolon.
    have hplain : ¬ (path ≠ "" ∧ ';' ∉ path.toList) := by
      intro h
      rw [Text.cut_of_notMem h.2, String.toList_eq_nil_iff] at hcut
      exact h.1 hcut
    rw [if_pos hcut]
    constructor
    · intro h
      exact .inr ⟨hcut, h.symm⟩
    · intro h
      cases h with
      | inl h => exact absurd h hplain
      | inr h => exact h.2.symm
  · have hne : path ≠ "" := by
      intro h
      rw [h] at hcut
      exact hcut rfl
    rw [if_neg hcut, placeBelow_cut_iff]
    simp [hne, hcut]

/-- Slashes at the end of an import path do not count, whichever source it comes from. -/
theorem outputStem_sources_slashes :
    let c : Config := { moduleName := some "example.com" }
    let f : FileDescriptor := { name := some "acme/foo.proto", options := some {} }
    c.paths = .importPath ∧ c.importPaths[f.path]? = none ∧
      (c.set (.importPath f.path "example.com/acme//")).outputStem f =
        c.outputStem (f.declaring "example.com/acme//") := by
  intro c f
  have hnone : c.importPaths[f.path]? = none := by decide
  exact ⟨rfl, hnone, (outputStem_sources_iff rfl hnone _).mpr (by decide)⟩

/-- The name of a package stays in a configured import path, and an empty one is a path there. -/
theorem outputStem_sources_differ :
    let c : Config := {}
    let f : FileDescriptor := { name := some "acme/v1/foo.proto" }
    (c.set (.importPath f.path "example.com/v1;acmev1")).outputStem f =
        .ok "example.com/v1;acmev1/foo" ∧
      c.outputStem (f.declaring "example.com/v1;acmev1") = .ok "example.com/v1/foo" ∧
      (c.set (.importPath f.path "")).outputStem f = .ok "/foo" ∧
      c.outputStem (f.declaring "") = .ok "acme/v1/foo" := by
  decide

end SchemaSummary
