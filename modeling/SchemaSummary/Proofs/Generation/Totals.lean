import Mathlib.Algebra.BigOperators.Group.List.Basic
import Mathlib.Algebra.Order.Ring.Nat
import Mathlib.Data.List.Perm.Basic
import SchemaSummary.Command.Log
import SchemaSummary.Proofs.Document.FieldOrder
import SchemaSummary.Proofs.Generation.Locality

/-! # Totals

  What the counts of a run count.

  Counts are taken from documents, where nested messages are flattened and fields are sorted.
  Neither loses anything or brings anything in, so a document has as many records of each kind as
  its schema file has declarations. The totals of a run are the sums over the selected schema
  files, and no file is selected twice.
-/

namespace SchemaSummary

/-! ## Declarations -/

namespace MessageDescriptor

mutual

/-- All messages of a declaration tree, in declaration order. -/
def declared : MessageDescriptor → List MessageDescriptor
  | ⟨name, fields, nested⟩ => ⟨name, fields, nested⟩ :: declaredIn nested

/-- All messages of a list of declaration trees, in declaration order. -/
def declaredIn : List MessageDescriptor → List MessageDescriptor
  | [] => []
  | m :: ms => m.declared ++ declaredIn ms

end

theorem declaredIn_eq (ms : List MessageDescriptor) : declaredIn ms = ms.flatMap declared := by
  induction ms with
  | nil => rw [declaredIn]; rfl
  | cons m ms ih => rw [declaredIn, ih, List.flatMap_cons]

theorem declared_eq (m : MessageDescriptor) : m.declared = m :: m.nested.flatMap declared := by
  obtain ⟨name, fields, nested⟩ := m
  rw [declared, declaredIn_eq]

/-- The records of a tree are those of the messages in it, although in another order. -/
theorem map_fields_walk_perm (m : MessageDescriptor) :
    ∀ full, ((m.walk full).map MessageRecord.fields).Perm (m.declared.map fieldRecords) := by
  induction m using tree_induction with
  | step m ih =>
    intro full
    rw [walk_eq, declared_eq, List.map_cons, List.map_cons, List.map_flatMap, List.map_flatMap]
    refine List.Perm.cons _ ?_
    -- The walk comes to the nested trees from last to first.
    have hreversed := (List.reverse_perm m.nested).flatMap_right fun c =>
      (c.walk (qualify full c.simpleName)).map MessageRecord.fields
    exact hreversed.trans (List.Perm.flatMap_left _ fun c hc => ih c hc _)

end MessageDescriptor

/-- All messages that are declared in a schema file, nested ones included. -/
def FileDescriptor.declaredMessages (f : FileDescriptor) : List MessageDescriptor :=
  MessageDescriptor.declaredIn f.messages

/-- How much is declared in a schema file. -/
def FileDescriptor.counts (f : FileDescriptor) : Stats where
  messages := f.declaredMessages.length
  fields := (f.declaredMessages.map fun m => m.fields.length).sum
  services := f.services.length
  methods := (f.services.map fun s => s.methods.length).sum

theorem map_fields_flattenMessages_perm (scope : String) (messages : List MessageDescriptor) :
    ((flattenMessages scope messages).map MessageRecord.fields).Perm
      ((MessageDescriptor.declaredIn messages).map MessageDescriptor.fieldRecords) := by
  rw [flattenMessages_eq_flatMap_walk, MessageDescriptor.declaredIn_eq, List.map_flatMap,
    List.map_flatMap]
  exact List.Perm.flatMap_left _ fun m _ => m.map_fields_walk_perm _

/-- The counts of a document are those of the declarations it summarises. -/
theorem stats_document (f : FileDescriptor) : f.document.stats = f.counts := by
  have hrecords := map_fields_flattenMessages_perm f.scope f.messages
  have hmessages : f.document.messages.length = f.declaredMessages.length := by
    have hlength := hrecords.length_eq
    rwa [List.length_map, List.length_map] at hlength
  have hfields : (f.document.messages.flatMap fun m => m.fields).length =
      (f.declaredMessages.map fun m => m.fields.length).sum := by
    -- Fields are sorted, and so there are as many of them.
    have hsorted (m : MessageDescriptor) : m.fieldRecords.length = m.fields.length := by
      simpa using m.fieldRecords_perm.length_eq
    have hsum := (hrecords.map List.length).sum_eq
    simp only [List.map_map, Function.comp_def, hsorted] at hsum
    rw [List.length_flatMap]
    exact hsum
  have hservices : f.document.services.length = f.services.length := List.length_map _
  have hmethods : (f.document.services.flatMap fun s => s.methods).length =
      (f.services.map fun s => s.methods.length).sum := by
    simp [FileDescriptor.document, collectServices, ServiceDescriptor.record, List.length_flatMap,
      Function.comp_def]
  rw [Document.stats, hmessages, hfields, hservices, hmethods, FileDescriptor.counts]

/-! ## Sums -/

namespace Stats

theorem foldl_add (a : Stats) (stats : List Stats) : stats.foldl add a =
    { messages := a.messages + (stats.map Stats.messages).sum
      fields := a.fields + (stats.map Stats.fields).sum
      services := a.services + (stats.map Stats.services).sum
      methods := a.methods + (stats.map Stats.methods).sum } := by
  induction stats generalizing a with
  | nil => simp
  | cons s stats ih => simp [ih, add, Nat.add_assoc]

/-- Counts are summed one kind at a time. -/
theorem sum_eq (stats : List Stats) : sum stats =
    { messages := (stats.map Stats.messages).sum
      fields := (stats.map Stats.fields).sum
      services := (stats.map Stats.services).sum
      methods := (stats.map Stats.methods).sum } := by
  simp [sum, foldl_add, zero]

end Stats

/-! ## Runs -/

namespace Generator

/-- The counts that come with a generated file are those of its schema file. -/
theorem counts_of_generateFile {g : Generator} {f : FileDescriptor} {file : GeneratedFile}
    {stats : Stats} (h : g.generateFile f = .ok (file, stats)) : stats = f.counts := by
  obtain ⟨stem, -, hfile⟩ := bind_eq_ok_iff.mp h
  obtain ⟨file', -, hpair⟩ := bind_eq_ok_iff.mp hfile
  cases hpair
  exact stats_document f

/-- The totals of a run are those of the selected schema files. -/
theorem totals_of_run {g : Generator} {q : Request} {files : List GeneratedFile} {totals : Stats}
    (h : g.run q = .ok (files, totals)) :
    totals = Stats.sum (q.selected.map FileDescriptor.counts) := by
  obtain ⟨selected, hselect, hrun⟩ := bind_eq_ok_iff.mp h
  obtain ⟨outputs, houtputs, hpair⟩ := bind_eq_ok_iff.mp hrun
  cases hpair
  obtain ⟨-, rfl⟩ := Request.select_eq_ok_iff.mp hselect
  rw [mapM_eq_ok_iff] at houtputs
  rw [map_eq_map_of_map_ok (fun f output => counts_of_generateFile) houtputs]

theorem exists_run_of_generate {g : Generator} {q : Request} {files : List GeneratedFile}
    (h : g.generate q = .ok files) : ∃ totals, g.run q = .ok (files, totals) := by
  rw [generate] at h
  cases hrun : g.run q with
  | error e =>
    rw [hrun] at h
    cases h
  | ok result =>
    rw [hrun] at h
    cases h
    exact ⟨result.2, rfl⟩

/-- The last thing that is logged of a run are its totals. -/
theorem getLast?_events {g : Generator} {q : Request} {files : List GeneratedFile}
    {totals : Stats} (h : g.run q = .ok (files, totals)) :
    (g.events q).getLast? = some (.finished files.length totals) := by
  obtain ⟨selected, hselect, -⟩ := bind_eq_ok_iff.mp h
  rw [events, hselect, h]
  exact List.getLast?_concat

end Generator

/-- **Totals**: the counts of a document are those of its schema file, in which every message
    counts, however deeply it is nested. The totals of a run, which are the last thing that it
    logs, are the sums over the first descriptors of the wanted names, so each name counts once. -/
theorem totals_of_declarations :
    (∀ f : FileDescriptor, f.document.stats = f.counts) ∧
      ∀ (g : Generator) (q : Request) files, g.generate q = .ok files →
        ∃ selected totals, q.SelectsFirst selected ∧ g.run q = .ok (files, totals) ∧
          (g.events q).getLast? = some (.finished files.length totals) ∧
          totals.messages = (selected.map fun f => f.counts.messages).sum ∧
          totals.fields = (selected.map fun f => f.counts.fields).sum ∧
          totals.services = (selected.map fun f => f.counts.services).sum ∧
          totals.methods = (selected.map fun f => f.counts.methods).sum := by
  refine ⟨stats_document, ?_⟩
  intro g q files h
  obtain ⟨totals, hrun⟩ := Generator.exists_run_of_generate h
  obtain ⟨hall, -⟩ := Generator.generate_eq_ok_iff.mp h
  have htotals := Generator.totals_of_run hrun
  rw [Stats.sum_eq] at htotals
  simp only [List.map_map, Function.comp_def] at htotals
  refine ⟨q.selected, totals, Request.selectsFirst_selected hall, hrun,
    Generator.getLast?_events hrun, ?_⟩
  rw [htotals]
  exact ⟨rfl, rfl, rfl, rfl⟩

/-! ### A file that is described twice -/

namespace Counted

def field (name : String) : FieldDescriptor := { name := some name }

def inner : MessageDescriptor := { name := some "Inner", fields := [field "y", field "z"] }

def outer : MessageDescriptor := { name := some "Outer", fields := [field "x"], nested := [inner] }

def service : ServiceDescriptor := { name := some "Echo", methods := [{ name := some "Call" }] }

def file : FileDescriptor :=
  { name := some "a.proto", messages := [outer], services := [service] }

/-- A request that describes a file twice and asks for it twice. -/
def request : Request where
  filesToGenerate := ["a.proto", "a.proto"]
  files := [file, file]

end Counted

open Counted in
theorem totals_of_file_twice :
    ∃ files, (Generator.yaml {}).run request =
      .ok (files, { messages := 2, fields := 3, services := 1, methods := 1 }) := by
  have hgenerate : (Generator.yaml {}).generate request = .ok [⟨"a.yaml", file.document.toYaml⟩] :=
    rfl
  obtain ⟨selected, totals, hselected, hrun, -, hmessages, hfields, hservices, hmethods⟩ :=
    totals_of_declarations.2 (Generator.yaml {}) request _ hgenerate
  have hfile : selected = [file] := hselected.places
  subst hfile
  obtain ⟨messages, fields, services, methods⟩ := totals
  subst hmessages hfields hservices hmethods
  exact ⟨_, hrun⟩

end SchemaSummary
