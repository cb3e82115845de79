import Mathlib.Data.List.Forall2
import Mathlib.Data.List.Nodup
import SchemaSummary.Proofs.Document.Flattening

/-! # The order of fields

  In which order a summary has the fields of a message.

  They are sorted by number, as signed numbers, and the sort is stable: fields of one number stay in
  the order in which they are declared. Where all numbers in a message are different, nothing is
  left of the order of declaration, so schema files that differ in nothing else have the same
  document.
-/

namespace SchemaSummary

/-! ## Sorted fields -/

theorem FieldRecord.le_trans (r s t : FieldRecord) (hrs : decide (r.number ≤ s.number) = true)
    (hst : decide (s.number ≤ t.number) = true) : decide (r.number ≤ t.number) = true :=
  decide_eq_true (Int32.le_trans (of_decide_eq_true hrs) (of_decide_eq_true hst))

theorem FieldRecord.le_total (r s : FieldRecord) :
    (decide (r.number ≤ s.number) || decide (s.number ≤ r.number)) = true := by
  simpa using Int32.le_total r.number s.number

namespace MessageDescriptor

/-- No field is lost and none is added. -/
theorem fieldRecords_perm (m : MessageDescriptor) :
    m.fieldRecords.Perm (m.fields.map FieldDescriptor.record) :=
  List.mergeSort_perm _ _

/-- Fields ascend by number. -/
theorem pairwise_fieldRecords (m : MessageDescriptor) :
    m.fieldRecords.Pairwise fun r s => r.number ≤ s.number :=
  (List.pairwise_mergeSort FieldRecord.le_trans FieldRecord.le_total _).imp of_decide_eq_true

/-- Fields of one number stay in the order of their declaration. -/
theorem filter_fieldRecords (m : MessageDescriptor) (n : Int32) :
    m.fieldRecords.filter (·.number = n) =
      (m.fields.map FieldDescriptor.record).filter (·.number = n) := by
  have hsorted : ((m.fields.map FieldDescriptor.record).filter (·.number = n)).Pairwise
      fun r s => decide (r.number ≤ s.number) = true := by
    refine List.pairwise_of_forall_mem_list ?_
    intro r hr s hs
    have hr : r.number = n := by simpa using (List.mem_filter.mp hr).2
    have hs : s.number = n := by simpa using (List.mem_filter.mp hs).2
    simp [hr, hs]
  -- The sort keeps every part of the list that is in order already.
  have hsub : ((m.fields.map FieldDescriptor.record).filter (·.number = n)).Sublist
      m.fieldRecords :=
    List.sublist_mergeSort FieldRecord.le_trans FieldRecord.le_total hsorted List.filter_sublist
  have hfilter := hsub.filter (·.number = n)
  rw [List.filter_filter] at hfilter
  simp only [Bool.and_self] at hfilter
  exact (hfilter.eq_of_length (m.fieldRecords_perm.filter _).length_eq.symm).symm

/-- Where all numbers are different, the order of declaration does not count. -/
theorem fieldRecords_eq_of_perm {m m' : MessageDescriptor} (hperm : m.fields.Perm m'.fields)
    (hdistinct : (m.fields.map FieldDescriptor.tag).Nodup) : m.fieldRecords = m'.fieldRecords := by
  have hrecords : m.fieldRecords.Perm m'.fieldRecords :=
    m.fieldRecords_perm.trans ((hperm.map _).trans m'.fieldRecords_perm.symm)
  have hnumbers : (m.fieldRecords.map FieldRecord.number).Nodup := by
    rw [(m.fieldRecords_perm.map FieldRecord.number).nodup_iff, List.map_map]
    exact hdistinct
  -- Sorted lists of the same items are equal if the order tells any two items apart.
  refine hrecords.eq_of_pairwise ?_ m.pairwise_fieldRecords m'.pairwise_fieldRecords
  intro r s hr hs hrs hsr
  have hnumber : r.number = s.number := Int32.le_antisymm hrs hsr
  exact List.inj_on_of_nodup_map hnumbers hr (hrecords.mem_iff.mpr hs) hnumber

end MessageDescriptor

/-! ## Declarations with their fields in another order -/

/-- Lists of which the items are related in pairs have the same values if related items do. -/
theorem map_eq_of_forall₂ {α β : Type} {R : α → α → Prop} {f : α → β} {xs ys : List α}
    (h : List.Forall₂ R xs ys) (heq : ∀ x ∈ xs, ∀ y, R x y → f x = f y) : xs.map f = ys.map f := by
  induction h with
  | nil => rfl
  | cons hxy _ ih =>
    rw [List.map_cons, List.map_cons, heq _ List.mem_cons_self _ hxy,
      ih fun x hx => heq x (List.mem_cons_of_mem _ hx)]

/-- The same message with its fields in another order, and so with every message nested in it. No
    two fields of one message have the same number. -/
inductive MessageDescriptor.FieldsReordered : MessageDescriptor → MessageDescriptor → Prop
  | intro {m m' : MessageDescriptor} (name : m.name = m'.name) (fields : m.fields.Perm m'.fields)
      (distinct : (m.fields.map FieldDescriptor.tag).Nodup)
      (nested : List.Forall₂ FieldsReordered m.nested m'.nested) : FieldsReordered m m'

/-- The same schema file with the fields of its messages in another order. -/
structure FileDescriptor.FieldsReordered (f f' : FileDescriptor) : Prop where
  name : f.name = f'.name
  package : f.package = f'.package
  messages : List.Forall₂ MessageDescriptor.FieldsReordered f.messages f'.messages
  services : f.services = f'.services
  options : f.options = f'.options

theorem MessageDescriptor.FieldsReordered.simpleName_eq {m m' : MessageDescriptor}
    (h : m.FieldsReordered m') : m.simpleName = m'.simpleName := by
  cases h with
  | intro name fields distinct nested => rw [simpleName, simpleName, name]

theorem walk_eq_of_fieldsReordered (m : MessageDescriptor) :
    ∀ {m' : MessageDescriptor} (full : String), m.FieldsReordered m' →
      m.walk full = m'.walk full := by
  -- On the tree of the first message, for all names and partners: children have names of their own.
  induction m using MessageDescriptor.tree_induction with
  | step m ih =>
    intro m' full h
    cases h with
    | intro name fields distinct nested =>
      -- Children are paired and have equal simple names, so each pair is walked under one name.
      have hnested : m.nested.map (fun c => c.walk (qualify full c.simpleName)) =
          m'.nested.map fun c => c.walk (qualify full c.simpleName) := by
        refine map_eq_of_forall₂ nested ?_
        intro c hc c' hcc'
        rw [hcc'.simpleName_eq]
        exact ih c hc _ hcc'
      rw [MessageDescriptor.walk_eq, MessageDescriptor.walk_eq, List.flatMap_def, List.flatMap_def,
        List.map_reverse, List.map_reverse, hnested, MessageDescriptor.record,
        MessageDescriptor.record, MessageDescriptor.fieldRecords_eq_of_perm fields distinct]

/-- The order in which fields are declared leaves no trace in a document. -/
theorem document_eq_of_fieldsReordered {f f' : FileDescriptor} (h : f.FieldsReordered f') :
    f.document = f'.document := by
  have hmessages : f.messages.map (fun m => m.walk (qualify f.scope m.simpleName)) =
      f'.messages.map fun m => m.walk (qualify f.scope m.simpleName) := by
    refine map_eq_of_forall₂ h.messages ?_
    intro m _ m' hm
    rw [hm.simpleName_eq]
    exact walk_eq_of_fieldsReordered m _ hm
  have hscope : f'.scope = f.scope := by rw [FileDescriptor.scope, FileDescriptor.scope, h.package]
  rw [FileDescriptor.document, FileDescriptor.document, hscope, ← h.services,
    flattenMessages_eq_flatMap_walk, flattenMessages_eq_flatMap_walk, List.flatMap_def,
    List.flatMap_def, hmessages]

end SchemaSummary
