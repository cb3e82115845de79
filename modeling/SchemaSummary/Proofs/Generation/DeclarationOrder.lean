import SchemaSummary.Proofs.Document.FieldOrder
import SchemaSummary.Proofs.Generation.Locality

/-! # Generation and the order of declarations

  What is generated from schema files in which the same fields are declared in another order.

  * The fields of a message are sorted by number, and the sort is stable.
  * The document of a schema file does not tell in which order fields with different numbers were
    declared, and its output name depends on no declaration at all.
  * So neither the file that is generated for it nor a run on several such files tells it.
-/

namespace SchemaSummary

/-! ## Single files -/

theorem FileDescriptor.FieldsReordered.path_eq {f f' : FileDescriptor}
    (h : f.FieldsReordered f') : f.path = f'.path := by
  rw [path, path, h.name]

theorem generateFile_eq_of_fieldsReordered (g : Generator) {f f' : FileDescriptor}
    (h : f.FieldsReordered f') : g.generateFile f = g.generateFile f' := by
  have hdeclared : f.declaredImportPath? = f'.declaredImportPath? := by
    rw [FileDescriptor.declaredImportPath?, FileDescriptor.declaredImportPath?, h.options]
  rw [Generator.generateFile, Generator.generateFile,
    g.config.outputStem_congr h.path_eq hdeclared, h.path_eq, document_eq_of_fieldsReordered h]

/-! ## Requests -/

/-- The same request with the fields of all messages in another order. -/
structure Request.FieldsReordered (q q' : Request) : Prop where
  filesToGenerate : q.filesToGenerate = q'.filesToGenerate
  parameter : q.parameter = q'.parameter
  files : List.Forall₂ FileDescriptor.FieldsReordered q.files q'.files

/-- Files that are picked by their names stay in pairs. -/
theorem filter_fieldsReordered {files files' : List FileDescriptor} (asked : String → Bool)
    (h : List.Forall₂ FileDescriptor.FieldsReordered files files') :
    List.Forall₂ FileDescriptor.FieldsReordered (files.filter fun f => asked f.path)
      (files'.filter fun f => asked f.path) := by
  refine List.rel_filter ?_ h
  intro f f' hf
  simp only [hf.path_eq]

theorem firstDescriptors_fieldsReordered {files files' : List FileDescriptor}
    (h : List.Forall₂ FileDescriptor.FieldsReordered files files') :
    List.Forall₂ FileDescriptor.FieldsReordered (firstDescriptors files)
      (firstDescriptors files') := by
  induction h with
  | nil => exact .nil
  | @cons f f' files files' hf _ ih =>
    rw [firstDescriptors, firstDescriptors, hf.path_eq]
    exact .cons hf (filter_fieldsReordered (· != f'.path) ih)

namespace Request.FieldsReordered

variable {q q' : Request}

theorem describes_eq (h : q.FieldsReordered q') : q.describes = q'.describes := by
  have hpaths : q.files.map FileDescriptor.path = q'.files.map FileDescriptor.path :=
    map_eq_of_forall₂ h.files fun _ _ _ hf => hf.path_eq
  funext n
  have hany : ∀ q : Request, q.describes n = (q.files.map FileDescriptor.path).any (· == n) := by
    intro q
    rw [List.any_map]
    rfl
  rw [hany, hany, hpaths]

theorem selected (h : q.FieldsReordered q') :
    List.Forall₂ FileDescriptor.FieldsReordered q.selected q'.selected := by
  rw [Request.selected, Request.selected]
  unfold Request.wants
  rw [h.filesToGenerate]
  exact filter_fieldsReordered q'.filesToGenerate.contains
    (firstDescriptors_fieldsReordered h.files)

/-- Runs on such requests are the same, down to the counts of documents. -/
theorem run_eq (h : q.FieldsReordered q') (g : Generator) : g.run q = g.run q' := by
  have hruns : q.selected.mapM g.generateFile = q'.selected.mapM g.generateFile :=
    mapM_eq_of_map_eq
      (map_eq_of_forall₂ h.selected fun _ _ _ hf => generateFile_eq_of_fieldsReordered g hf)
  -- Both requests select, or else they fail at the same name.
  unfold Generator.run Request.select
  rw [h.filesToGenerate, h.describes_eq]
  cases q'.filesToGenerate.find? fun name => !q'.describes name with
  | some name => rfl
  | none =>
    show (q.selected.mapM g.generateFile >>= fun outputs => _) = _
    rw [hruns]
    rfl

theorem generate_eq (h : q.FieldsReordered q') : generate q = generate q' := by
  have hconfig : q.config = q'.config := by rw [Request.config, Request.config, h.parameter]
  unfold SchemaSummary.generate Generator.generate
  rw [hconfig]
  simp only [h.run_eq]

end Request.FieldsReordered

/-- **The order of fields** in a summary is that of their signed numbers, and fields of one number
    stay in the order of their declaration. Where no two fields of a message have the same number,
    the order in which fields are declared, in whichever messages, is not to be seen in a document,
    in a generated file or in what a whole request gives. -/
theorem fields_in_order :
    (∀ m : MessageDescriptor,
      let declared := m.fields.map fun f => FieldRecord.mk (f.name.getD "") (f.number.getD 0)
      m.fieldRecords.Perm declared ∧
        (m.fieldRecords.Pairwise fun r s => r.number.toInt ≤ s.number.toInt) ∧
        ∀ n, m.fieldRecords.filter (·.number = n) = declared.filter (·.number = n)) ∧
      (∀ f f' : FileDescriptor, f.FieldsReordered f' →
        f.document = f'.document ∧ ∀ g : Generator, g.generateFile f = g.generateFile f') ∧
      ∀ q q' : Request, q.FieldsReordered q' →
        (∀ g : Generator, g.generate q = g.generate q') ∧ generate q = generate q' := by
  refine ⟨?_, ?_, ?_⟩
  · intro m declared
    refine ⟨m.fieldRecords_perm, ?_, m.filter_fieldRecords⟩
    exact m.pairwise_fieldRecords.imp Int32.le_iff_toInt_le.mp
  · intro f f' h
    exact ⟨document_eq_of_fieldsReordered h, fun g => generateFile_eq_of_fieldsReordered g h⟩
  · intro q q' h
    refine ⟨?_, h.generate_eq⟩
    intro g
    rw [Generator.generate, Generator.generate, h.run_eq]

/-! ### Fields in another order -/

namespace Shuffled

def low : FieldDescriptor := { name := some "low", number := some (-1) }

def unset : FieldDescriptor := { name := some "unset" }

def high : FieldDescriptor := { name := some "high", number := some 2147483647 }

def message (name : String) (fields : List FieldDescriptor) (nested : List MessageDescriptor) :
    MessageDescriptor := { name := some name, fields, nested }

/-- A schema file with a message and a nested message of the given fields. -/
def file (outer inner : List FieldDescriptor) : FileDescriptor where
  name := some "a.proto"
  messages := [message "Outer" outer [message "Inner" inner []]]

theorem fieldsReordered_file {outer outer' inner inner' : List FieldDescriptor}
    (houter : outer.Perm outer') (hinner : inner.Perm inner')
    (hdistinct : (outer.map FieldDescriptor.tag).Nodup)
    (hdistinct' : (inner.map FieldDescriptor.tag).Nodup) :
    (file outer inner).FieldsReordered (file outer' inner') where
  name := rfl
  package := rfl
  messages := by
    have hnested : (message "Inner" inner []).FieldsReordered (message "Inner" inner' []) :=
      .intro rfl hinner hdistinct' .nil
    exact .cons (.intro rfl houter hdistinct (.cons hnested .nil)) .nil
  services := rfl
  options := rfl

end Shuffled

open Shuffled in
theorem fields_in_order_shuffled :
    (file [high, low] [unset, high, low]).FieldsReordered (file [low, high] [low, unset, high]) ∧
      (file [high, low] [unset, high, low]).document =
        (file [low, high] [low, unset, high]).document := by
  have h : (file [high, low] [unset, high, low]).FieldsReordered
      (file [low, high] [low, unset, high]) :=
    fieldsReordered_file (by decide) (by decide) (by decide) (by decide)
  exact ⟨h, (fields_in_order.2.1 _ _ h).1⟩

end SchemaSummary
