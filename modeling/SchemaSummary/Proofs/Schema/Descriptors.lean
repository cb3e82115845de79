import SchemaSummary.Proofs.Document.Flattening
import SchemaSummary.Proofs.Wire.Reordering
import SchemaSummary.Schema.Record

/-! # Descriptors as records

  Each kind of descriptor is read back from its record, set and unset fields apart, and it is read
  from reordered records as well. The record is one of its kind of message, and nested no more
  deeply than the messages it describes.
-/

namespace SchemaSummary

open Wire

/-! ## Reading what was laid out -/

theorem FieldDescriptor.ofRecord_toRecord (f : FieldDescriptor) : ofRecord f.toRecord = f := by
  have hname : f.toRecord.text? 1 = f.name := Record.text?_of_values (by simp [toRecord])
  have hnumber : f.toRecord.varint? 3 = f.number.map Int32.toVarint :=
    Record.varint?_of_values (by simp [toRecord])
  rw [ofRecord, hname, hnumber, Option.map_map,
    funext (f := Int32.ofVarint ∘ Int32.toVarint) Int32.ofVarint_toVarint]
  simp

theorem MethodDescriptor.ofRecord_toRecord (m : MethodDescriptor) : ofRecord m.toRecord = m := by
  have hname : m.toRecord.text? 1 = m.name := Record.text?_of_values (by simp [toRecord])
  have hinput : m.toRecord.text? 2 = m.inputType := Record.text?_of_values (by simp [toRecord])
  have houtput : m.toRecord.text? 3 = m.outputType := Record.text?_of_values (by simp [toRecord])
  rw [ofRecord, hname, hinput, houtput]

section Nested

variable {α : Type} {toRecord : α → Record} {ofRecord : Record → α} {number : Nat} {r : Record}

/-- What was laid out in the messages of a field is read back, if each of them is. -/
theorem map_messages_of_values {as : List α}
    (h : r.values number = (as.map toRecord).map Value.message)
    (hback : ∀ a ∈ as, ofRecord (toRecord a) = a) : (r.messages number).map ofRecord = as := by
  rw [Record.messages_of_values h, List.map_map]
  exact (List.map_congr_left hback).trans (List.map_id as)

theorem map_message?_of_values {a? : Option α}
    (h : r.values number = (a?.map toRecord).toList.map Value.message)
    (hback : ∀ a, ofRecord (toRecord a) = a) : (r.message? number).map ofRecord = a? := by
  rw [Record.message?_of_values h, Option.map_map, funext (f := ofRecord ∘ toRecord) hback]
  exact Option.map_id'

end Nested

theorem ServiceDescriptor.ofRecord_toRecord (s : ServiceDescriptor) : ofRecord s.toRecord = s := by
  have hname : s.toRecord.text? 1 = s.name := Record.text?_of_values (by simp [toRecord])
  have hmethods : (s.toRecord.messages 2).map MethodDescriptor.ofRecord = s.methods :=
    map_messages_of_values (by simp [toRecord]) fun m _ => m.ofRecord_toRecord
  rw [ofRecord, hname, hmethods]

theorem FileOptions.ofRecord_toRecord (o : FileOptions) : ofRecord o.toRecord = o := by
  have hpackage : o.toRecord.text? 11 = o.goPackage := Record.text?_of_values (by simp [toRecord])
  rw [ofRecord, hpackage]

namespace MessageDescriptor

theorem toRecord_eq (m : MessageDescriptor) : m.toRecord =
    textField 1 m.name ++ messageFields 2 (m.fields.map FieldDescriptor.toRecord) ++
      messageFields 3 (m.nested.map toRecord) := by
  obtain ⟨name, fields, nested⟩ := m
  have hnested : nestedFields nested = messageFields 3 (nested.map toRecord) := by
    induction nested with
    | nil => rw [nestedFields]; rfl
    | cons c cs ih => rw [nestedFields, ih]; rfl
  rw [toRecord, hnested]

theorem allOf_eq (number : Nat) (r : Record) :
    allOf number r = (r.messages number).map ofRecord := by
  induction r with
  | nil => rw [allOf]; rfl
  | cons field r ih =>
    obtain ⟨n, v⟩ := field
    by_cases h : n = number
    · subst h
      rw [allOf, if_pos rfl, ih, Record.messages, Record.messages, Record.values_cons_self]
      cases v <;> simp [ofValue?, ofRecord, Value.message?, List.filterMap_cons]
    · rw [allOf, if_neg h, ih, Record.messages, Record.messages, Record.values_cons_ne h]

theorem ofRecord_toRecord (m : MessageDescriptor) : ofRecord m.toRecord = m := by
  induction m using tree_induction with
  | step m ih =>
    have hname : m.toRecord.text? 1 = m.name :=
      Record.text?_of_values (by simp [toRecord_eq])
    have hfields : (m.toRecord.messages 2).map FieldDescriptor.ofRecord = m.fields :=
      map_messages_of_values (by simp [toRecord_eq]) fun f _ => f.ofRecord_toRecord
    have hnested : (m.toRecord.messages 3).map ofRecord = m.nested :=
      map_messages_of_values (by simp [toRecord_eq m]) ih
    rw [ofRecord, allOf_eq, hname, hfields, hnested]
    cases m
    rfl

end MessageDescriptor

theorem FileDescriptor.ofRecord_toRecord (f : FileDescriptor) : ofRecord f.toRecord = f := by
  have hname : f.toRecord.text? 1 = f.name := Record.text?_of_values (by simp [toRecord])
  have hpackage : f.toRecord.text? 2 = f.package := Record.text?_of_values (by simp [toRecord])
  have hmessages : (f.toRecord.messages 4).map MessageDescriptor.ofRecord = f.messages :=
    map_messages_of_values (by simp [toRecord]) fun m _ => m.ofRecord_toRecord
  have hservices : (f.toRecord.messages 6).map ServiceDescriptor.ofRecord = f.services :=
    map_messages_of_values (by simp [toRecord]) fun s _ => s.ofRecord_toRecord
  have hoptions : (f.toRecord.message? 8).map FileOptions.ofRecord = f.options :=
    map_message?_of_values (by simp [toRecord]) FileOptions.ofRecord_toRecord
  rw [ofRecord, MessageDescriptor.allOf_eq, hname, hpackage, hmessages, hservices, hoptions]

/-! ## Reading what was reordered -/

namespace Wire.Reordered

variable {r s : Record}

theorem field (h : Reordered r s) : FieldDescriptor.ofRecord r = FieldDescriptor.ofRecord s := by
  rw [FieldDescriptor.ofRecord, FieldDescriptor.ofRecord, h.text?_eq, h.varint?_eq]

theorem method (h : Reordered r s) : MethodDescriptor.ofRecord r = MethodDescriptor.ofRecord s := by
  rw [MethodDescriptor.ofRecord, MethodDescriptor.ofRecord, h.text?_eq, h.text?_eq, h.text?_eq]

theorem service (h : Reordered r s) :
    ServiceDescriptor.ofRecord r = ServiceDescriptor.ofRecord s := by
  rw [ServiceDescriptor.ofRecord, ServiceDescriptor.ofRecord, h.text?_eq, h.map_messages_eq method]

/-- A message is read by recursion, so what is nested in it is told from the steps that reorder
    it. -/
theorem message (h : Reordered r s) :
    MessageDescriptor.ofRecord r = MessageDescriptor.ofRecord s := by
  have hparts : ∀ {r s : Record}, Reordered r s →
      (r.messages 3).map MessageDescriptor.ofRecord =
        (s.messages 3).map MessageDescriptor.ofRecord →
      MessageDescriptor.ofRecord r = MessageDescriptor.ofRecord s := by
    intro r s h hnested
    rw [MessageDescriptor.ofRecord, MessageDescriptor.ofRecord, MessageDescriptor.allOf_eq,
      MessageDescriptor.allOf_eq, hnested, h.text?_eq, h.map_messages_eq field]
  induction h with
  | order h =>
    apply hparts (.order h)
    rw [Record.messages, Record.messages, h]
  | @inside before after n r s h ih =>
    exact hparts (.inside h) (map_messages_inside before after n ih 3)
  | trans _ _ ihfirst ihlast => exact ihfirst.trans ihlast

/-- The options are merged, so their texts are those of all messages that hold them. -/
theorem map_options_eq (r : Record) (number : Nat) :
    (r.message? number).map FileOptions.ofRecord =
      ((r.messages number).map (Record.texts 11)).head?.map fun _ =>
        ⟨((r.messages number).map (Record.texts 11)).flatten.getLast?⟩ := by
  rw [Record.message?, ← Record.texts_flatten]
  cases r.messages number with
  | nil => rfl
  | cons m ms => rfl

theorem options (h : Reordered r s) (number : Nat) :
    (r.message? number).map FileOptions.ofRecord =
      (s.message? number).map FileOptions.ofRecord := by
  rw [map_options_eq, map_options_eq, h.map_messages_eq fun h => h.texts_eq 11]

theorem file (h : Reordered r s) : FileDescriptor.ofRecord r = FileDescriptor.ofRecord s := by
  rw [FileDescriptor.ofRecord, FileDescriptor.ofRecord, MessageDescriptor.allOf_eq,
    MessageDescriptor.allOf_eq, h.text?_eq, h.text?_eq, h.map_messages_eq message,
    h.map_messages_eq service, h.options]

end Wire.Reordered

/-! ## The kinds of the records -/

theorem FieldDescriptor.fits_toRecord (f : FieldDescriptor) : Fits .field f.toRecord :=
  (fits_textField rfl rfl _).append (fits_varintField rfl rfl _)

theorem MethodDescriptor.fits_toRecord (m : MethodDescriptor) : Fits .method m.toRecord :=
  ((fits_textField rfl rfl _).append (fits_textField rfl rfl _)).append (fits_textField rfl rfl _)

theorem ServiceDescriptor.fits_toRecord (s : ServiceDescriptor) : Fits .service s.toRecord :=
  (fits_textField rfl rfl _).append (fits_messageFields rfl rfl fun m _ => m.fits_toRecord)

theorem FileOptions.fits_toRecord (o : FileOptions) : Fits .fileOptions o.toRecord :=
  fits_textField rfl rfl _

theorem MessageDescriptor.fits_toRecord (m : MessageDescriptor) : Fits .message m.toRecord := by
  induction m using tree_induction with
  | step m ih =>
    have hfields : Fits .message (messageFields 2 (m.fields.map FieldDescriptor.toRecord)) :=
      fits_messageFields rfl rfl fun f _ => f.fits_toRecord
    have hnested : Fits .message (messageFields 3 (m.nested.map toRecord)) :=
      fits_messageFields rfl rfl ih
    rw [toRecord_eq]
    exact ((fits_textField rfl rfl _).append hfields).append hnested

theorem FileDescriptor.fits_toRecord (f : FileDescriptor) : Fits .file f.toRecord := by
  have hmessages : Fits .file (messageFields 4 (f.messages.map MessageDescriptor.toRecord)) :=
    fits_messageFields rfl rfl fun m _ => m.fits_toRecord
  have hservices : Fits .file (messageFields 6 (f.services.map ServiceDescriptor.toRecord)) :=
    fits_messageFields rfl rfl fun s _ => s.fits_toRecord
  have hoptions : Fits .file (messageField 8 (f.options.map FileOptions.toRecord)) :=
    fits_messageField rfl rfl fun o _ => o.fits_toRecord
  have htexts : Fits .file (textField 1 f.name ++ textField 2 f.package) :=
    (fits_textField rfl rfl _).append (fits_textField rfl rfl _)
  exact ((htexts.append hmessages).append hservices).append hoptions

/-! ## How deeply the records are nested -/

namespace MessageDescriptor

mutual

/-- The number of levels on which there are messages in a declaration tree, its root included. -/
def levels : MessageDescriptor → Nat
  | ⟨_, _, nested⟩ => 1 + MessageDescriptor.forestLevels nested

/-- The number of levels on which there are messages in a list of declaration trees. -/
def forestLevels : List MessageDescriptor → Nat
  | [] => 0
  | m :: ms => max m.levels (MessageDescriptor.forestLevels ms)

end

theorem levels_eq (m : MessageDescriptor) : m.levels = 1 + forestLevels m.nested := by
  cases m
  rw [levels]

theorem levels_le_forestLevels {c : MessageDescriptor} {cs : List MessageDescriptor}
    (h : c ∈ cs) : c.levels ≤ forestLevels cs := by
  induction cs with
  | nil => cases h
  | cons d cs ih =>
    rw [forestLevels]
    rcases List.mem_cons.mp h with rfl | h
    · exact Nat.le_max_left _ _
    · exact Nat.le_trans (ih h) (Nat.le_max_right _ _)

end MessageDescriptor

theorem FieldDescriptor.depth_toRecord (f : FieldDescriptor) : f.toRecord.depth = 0 := by
  simp [toRecord]

theorem MethodDescriptor.depth_toRecord (m : MethodDescriptor) : m.toRecord.depth = 0 := by
  simp [toRecord]

theorem ServiceDescriptor.depth_toRecord_le (s : ServiceDescriptor) : s.toRecord.depth ≤ 1 := by
  have hmethods : (messageFields 2 (s.methods.map MethodDescriptor.toRecord)).depth ≤ 1 + 0 :=
    Record.depth_messageFields_le fun m _ => Nat.le_of_eq m.depth_toRecord
  simpa [toRecord] using hmethods

theorem FileOptions.depth_toRecord (o : FileOptions) : o.toRecord.depth = 0 := by
  simp [toRecord]

/-- Fields take one level, and so they are below the level of the message that has them. -/
theorem MessageDescriptor.depth_toRecord_le (m : MessageDescriptor) :
    m.toRecord.depth ≤ m.levels := by
  induction m using tree_induction with
  | step m ih =>
    have hfields : (messageFields 2 (m.fields.map FieldDescriptor.toRecord)).depth ≤ 1 + 0 :=
      Record.depth_messageFields_le fun f _ => Nat.le_of_eq f.depth_toRecord
    have hnested : (messageFields 3 (m.nested.map toRecord)).depth ≤ 1 + forestLevels m.nested :=
      Record.depth_messageFields_le fun c hc => Nat.le_trans (ih c hc) (levels_le_forestLevels hc)
    rw [toRecord_eq, levels_eq, Record.depth_append, Record.depth_append, Record.depth_textField]
    omega

theorem FileDescriptor.depth_toRecord_le {f : FileDescriptor} {n : Nat} (hpos : 0 < n)
    (h : ∀ m ∈ f.messages, m.levels ≤ n) : f.toRecord.depth ≤ 1 + n := by
  have hmessages : (messageFields 4 (f.messages.map MessageDescriptor.toRecord)).depth ≤ 1 + n :=
    Record.depth_messageFields_le fun m hm => Nat.le_trans m.depth_toRecord_le (h m hm)
  have hservices : (messageFields 6 (f.services.map ServiceDescriptor.toRecord)).depth ≤ 1 + 1 :=
    Record.depth_messageFields_le fun s _ => s.depth_toRecord_le
  have hoptions : (messageField 8 (f.options.map FileOptions.toRecord)).depth ≤ 1 + 0 :=
    Record.depth_messageField_le fun o _ => Nat.le_of_eq o.depth_toRecord
  rw [toRecord]
  simp only [Record.depth_append, Record.depth_textField]
  omega

end SchemaSummary
