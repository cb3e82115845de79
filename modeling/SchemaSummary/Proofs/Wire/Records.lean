import SchemaSummary.Proofs.Wire.Fields

/-! # Records as bytes

  The ways of writing a record as a message of some kind, and that all of them are read as that
  record.

    * Any number may be written in any of its forms.
    * Fields that the kind does not define may stand anywhere, in nested messages too.
    * What the writer produces is one of these ways.

  Reading goes as deep as messages are nested, and one level deeper where a field is passed over.
-/

namespace SchemaSummary.Wire

/-! ## Nesting -/

mutual

/-- How deeply messages are nested in a value, itself included. -/
def Value.depth : Value → Nat
  | .message fields => 1 + Value.fieldsDepth fields
  | .varint _ | .fixed64 _ | .fixed32 _ | .bytes _ | .text _ => 0

/-- How deeply messages are nested in fields. -/
def Value.fieldsDepth : List (Nat × Value) → Nat
  | [] => 0
  | (_, v) :: rest => max v.depth (Value.fieldsDepth rest)

end

/-- How deeply messages are nested in a record. -/
def Record.depth (r : Record) : Nat := Value.fieldsDepth r

@[simp] theorem Record.depth_nil : Record.depth [] = 0 := rfl

@[simp] theorem Record.depth_cons (number : Nat) (v : Value) (r : Record) :
    Record.depth ((number, v) :: r) = max v.depth r.depth := rfl

@[simp] theorem Value.depth_message (r : Record) : (Value.message r).depth = 1 + r.depth := rfl

/-- A record is nested no deeper than its fields. -/
theorem Record.depth_le_iff {r : Record} {n : Nat} :
    r.depth ≤ n ↔ ∀ field ∈ r, field.2.depth ≤ n := by
  induction r with
  | nil => simp
  | cons field r ih =>
    obtain ⟨number, v⟩ := field
    rw [Record.depth_cons, Nat.max_le, ih, List.forall_mem_cons]

@[simp] theorem Record.depth_append (r s : Record) :
    depth (r ++ s) = max r.depth s.depth := by
  induction r with
  | nil => simp
  | cons field r ih =>
    obtain ⟨number, v⟩ := field
    rw [List.cons_append, depth_cons, depth_cons, ih, Nat.max_assoc]

theorem Record.depth_map_le {α : Type} {number n : Nat} {value : α → Value} {as : List α}
    (h : ∀ a ∈ as, (value a).depth ≤ n) : depth (as.map fun a => (number, value a)) ≤ n := by
  rw [depth_le_iff]
  intro field hfield
  obtain ⟨a, ha, rfl⟩ := List.mem_map.mp hfield
  exact h a ha

@[simp] theorem Record.depth_textField (number : Nat) (s : Option String) :
    depth (textField number s) = 0 :=
  Nat.le_zero.mp (depth_map_le fun _ _ => Nat.zero_le 0)

@[simp] theorem Record.depth_textFields (number : Nat) (ss : List String) :
    depth (textFields number ss) = 0 :=
  Nat.le_zero.mp (depth_map_le fun _ _ => Nat.zero_le 0)

@[simp] theorem Record.depth_varintField (number : Nat) (v : Option UInt64) :
    depth (varintField number v) = 0 :=
  Nat.le_zero.mp (depth_map_le fun _ _ => Nat.zero_le 0)

theorem Record.depth_messageFields_le {α : Type} {number n : Nat} {toRecord : α → Record}
    {as : List α} (h : ∀ a ∈ as, (toRecord a).depth ≤ n) :
    depth (messageFields number (as.map toRecord)) ≤ 1 + n := by
  refine depth_map_le fun m hm => ?_
  obtain ⟨a, ha, rfl⟩ := List.mem_map.mp hm
  exact Nat.add_le_add_left (h a ha) 1

theorem Record.depth_messageField_le {α : Type} {number n : Nat} {toRecord : α → Record}
    {a? : Option α} (h : ∀ a ∈ a?, (toRecord a).depth ≤ n) :
    depth (messageField number (a?.map toRecord)) ≤ 1 + n := by
  rw [messageField, Option.toList_map]
  exact depth_messageFields_le fun a ha => h a (Option.mem_toList.mp ha)

/-! ## Ways of writing -/

/-- The ways of writing a record as a message of a given kind. -/
inductive Written : MessageKind → Record → List UInt8 → Prop
  | nil {kind : MessageKind} : Written kind [] []
  | scalar {kind : MessageKind} {number : Nat} {spec : FieldSpec} {v : Value} {r : Record}
      {kb vb bs : List UInt8} (hspec : kind.field? number = some spec)
      (hkey : KeyForm kb ⟨number, v.wireType⟩) (hvalue : ScalarForm spec.form v vb)
      (hrest : Written kind r bs) : Written kind ((number, v) :: r) (kb ++ vb ++ bs)
  | message {kind inner : MessageKind} {number : Nat} {spec : FieldSpec} {nested r : Record}
      {kb vb contents bs : List UInt8} (hspec : kind.field? number = some spec)
      (hform : spec.form = .message inner) (hkey : KeyForm kb ⟨number, .delimited⟩)
      (hvalue : DelimitedForm vb contents) (hnested : Written inner nested contents)
      (hrest : Written kind r bs) : Written kind ((number, .message nested) :: r) (kb ++ vb ++ bs)
  /-- A field that the kind does not define leaves nothing in the record. -/
  | passedOver {kind : MessageKind} {key : Key} {r : Record} {kb vb bs : List UInt8}
      (hspec : kind.field? key.number = none) (hkey : KeyForm kb key)
      (hvalue : PassedOver key.wireType vb) (hrest : Written kind r bs) :
      Written kind r (kb ++ vb ++ bs)

/-- What is written of two records, one after the other, is a way of writing both. -/
theorem Written.append {kind : MessageKind} {r s : Record} {bs cs : List UInt8}
    (hr : Written kind r bs) (hs : Written kind s cs) : Written kind (r ++ s) (bs ++ cs) := by
  induction hr with
  | nil => exact hs
  | scalar hspec hkey hvalue _ ih =>
    rw [List.append_assoc]
    exact .scalar hspec hkey hvalue (ih hs)
  | message hspec hform hkey hvalue hnested _ _ ih =>
    rw [List.append_assoc]
    exact .message hspec hform hkey hvalue hnested (ih hs)
  | passedOver hspec hkey hvalue _ ih =>
    rw [List.append_assoc]
    exact .passedOver hspec hkey hvalue (ih hs)

/-! ## Reading -/

section Parts

variable {α : Type} {part : Reader (List α)}

/-- A part in front of parts that are read is read as well. -/
theorem readParts_cons {bs cs rest : List UInt8} {found more : List α} {count : Nat}
    (hpart : Reads part bs found) (hne : bs ≠ [])
    (hmore : readParts part rest.length count (.ofBytes (cs ++ rest)) =
      .ok (more, .ofBytes rest)) :
    readParts part rest.length (count + 1) (.ofBytes (bs ++ cs ++ rest)) =
      .ok (found ++ more, .ofBytes rest) := by
  have hpos := List.length_pos_iff.mpr hne
  have hleft : ¬ (Input.ofBytes (bs ++ cs ++ rest)).left ≤ rest.length := by
    simp only [Input.left_ofBytes, List.length_append]
    omega
  rw [readParts, if_neg hleft, List.append_assoc, hpart]
  simp only [ok_bind, hmore]

/-- Nothing is read where nothing is left of a message. -/
theorem readParts_nil (rest : List UInt8) (count : Nat) :
    readParts part rest.length count (.ofBytes rest) = .ok ([], .ofBytes rest) := by
  cases count with
  | zero => rfl
  | succ count => rw [readParts, if_pos (by simp)]

/-- A delimited value is read if its parts are, whatever follows it. -/
theorem reads_delimitedParts {bs contents : List UInt8} {found : List α}
    (h : DelimitedForm bs contents)
    (hparts : ∀ (rest : List UInt8) (count : Nat), contents.length ≤ count →
      readParts part rest.length count (.ofBytes (contents ++ rest)) =
        .ok (found, .ofBytes rest)) :
    Reads (readDelimitedParts part) bs found := by
  intro rest
  obtain ⟨length, hlength, rfl⟩ := h
  have hlimit : (contents ++ rest).length - contents.length = rest.length := by simp
  have hread := hparts rest (contents ++ rest).length (by simp)
  rw [readDelimitedParts, List.append_assoc, reads_length hlength]
  simp only [ok_bind, Input.left_ofBytes, hlimit, hread, if_true]

end Parts

theorem KeyForm.append_ne_nil {kb : List UInt8} {key : Key} (h : KeyForm kb key)
    (vb : List UInt8) : kb ++ vb ≠ [] := by
  simp [h.varint.digits.ne_nil]

/-- **Every way of writing** a record is read as that record, if messages are not nested more
    deeply than may be read, and what follows is left. -/
theorem readParts_of_written {kind : MessageKind} {r : Record} {bs : List UInt8}
    (h : Written kind r bs) : ∀ depth, r.depth < depth → ∀ (rest : List UInt8)
      (count : Nat), bs.length ≤ count →
      readParts (readField depth kind) rest.length count (.ofBytes (bs ++ rest)) =
        .ok (r, .ofBytes rest) := by
  -- Every field takes at least a byte, so the count of parts goes down with the bytes.
  have hcount : ∀ {kb vb bs : List UInt8} {key : Key} {count : Nat}, KeyForm kb key →
      (kb ++ vb ++ bs).length ≤ count → ∃ c, count = c + 1 ∧ bs.length ≤ c := by
    intro kb vb bs key count hkey hlength
    have hpos := List.length_pos_iff.mpr (hkey.append_ne_nil vb)
    rw [List.length_append] at hlength
    exact ⟨count - 1, by omega, by omega⟩
  induction h with
  | nil =>
    intro depth _ rest count _
    exact readParts_nil rest count
  | scalar hspec hkey hvalue _ ih =>
    intro depth hdepth rest count hlength
    obtain ⟨depth, rfl⟩ := Nat.exists_eq_succ_of_ne_zero (by omega : depth ≠ 0)
    obtain ⟨count, rfl, hmore⟩ := hcount hkey hlength
    rw [Record.depth_cons, Nat.max_lt] at hdepth
    exact readParts_cons (reads_field hspec hkey (reads_scalar hvalue)) (hkey.append_ne_nil _)
      (ih _ hdepth.2 rest count hmore)
  | message hspec hform hkey hvalue _ _ ihnested ih =>
    intro depth hdepth rest count hlength
    obtain ⟨depth, rfl⟩ := Nat.exists_eq_succ_of_ne_zero (by omega : depth ≠ 0)
    obtain ⟨count, rfl, hmore⟩ := hcount hkey hlength
    rw [Record.depth_cons, Value.depth_message, Nat.max_lt] at hdepth
    have hnested := reads_delimitedParts hvalue (ihnested depth (by omega))
    refine readParts_cons (reads_field hspec hkey ?_) (hkey.append_ne_nil _)
      (ih _ hdepth.2 rest count hmore)
    rw [hform]
    exact reads_message hnested
  | passedOver hspec hkey hvalue _ ih =>
    intro depth hdepth rest count hlength
    obtain ⟨depth, rfl⟩ := Nat.exists_eq_succ_of_ne_zero (by omega : depth ≠ 0)
    obtain ⟨count, rfl, hmore⟩ := hcount hkey hlength
    exact readParts_cons (reads_passedOver hspec hkey hvalue) (hkey.append_ne_nil _)
      (ih _ hdepth rest count hmore)

theorem decode_of_written {kind : MessageKind} {r : Record} {bs : List UInt8}
    (h : Written kind r bs) (hdepth : r.depth < maxDepth) : Record.decode kind bs = .ok r := by
  have hread := readParts_of_written h maxDepth hdepth [] (Input.ofBytes bs).left (by simp)
  rw [List.append_nil] at hread
  simp only [Record.decode]
  rw [show (0 : Nat) = ([] : List UInt8).length from rfl, hread]
  rfl

/-! ## What the writer produces -/

/-- Whether a field that holds its values in a given form can have a value that is no message. -/
def FieldForm.holds : FieldForm → Value → Bool
  | .varint, .varint _ | .varints, .varint _ | .fixed64, .fixed64 _ => true
  | .text, .text _ | .bytes, .bytes _ => true
  | _, _ => false

/-- Whether the fields of a record are fields of a given kind of message. -/
inductive Fits : MessageKind → Record → Prop
  | nil {kind : MessageKind} : Fits kind []
  | scalar {kind : MessageKind} {number : Nat} {spec : FieldSpec} {v : Value} {r : Record}
      (hspec : kind.field? number = some spec) (hvalue : spec.form.holds v)
      (hrest : Fits kind r) : Fits kind ((number, v) :: r)
  | message {kind inner : MessageKind} {number : Nat} {spec : FieldSpec} {nested r : Record}
      (hspec : kind.field? number = some spec) (hform : spec.form = .message inner)
      (hnested : Fits inner nested) (hrest : Fits kind r) :
      Fits kind ((number, .message nested) :: r)

section Fits

variable {kind inner : MessageKind} {number : Nat} {spec : FieldSpec}

theorem Fits.append {r s : Record} (hr : Fits kind r) (hs : Fits kind s) : Fits kind (r ++ s) := by
  induction hr with
  | nil => exact hs
  | scalar hspec hvalue _ ih => exact .scalar hspec hvalue (ih hs)
  | message hspec hform hnested _ _ ih => exact .message hspec hform hnested (ih hs)

theorem fits_map {α : Type} {value : α → Value} (hspec : kind.field? number = some spec)
    (hvalue : ∀ a, spec.form.holds (value a)) (as : List α) :
    Fits kind (as.map fun a => (number, value a)) := by
  induction as with
  | nil => exact .nil
  | cons a as ih => exact .scalar hspec (hvalue a) ih

theorem fits_textFields (hspec : kind.field? number = some spec) (hform : spec.form = .text)
    (ss : List String) : Fits kind (textFields number ss) :=
  fits_map hspec (fun _ => by rw [hform]; rfl) ss

theorem fits_textField (hspec : kind.field? number = some spec) (hform : spec.form = .text)
    (s : Option String) : Fits kind (textField number s) :=
  fits_textFields hspec hform s.toList

theorem fits_varintField (hspec : kind.field? number = some spec) (hform : spec.form = .varint)
    (v : Option UInt64) : Fits kind (varintField number v) :=
  fits_map hspec (fun _ => by rw [hform]; rfl) v.toList

theorem fits_messageFields {α : Type} {toRecord : α → Record}
    (hspec : kind.field? number = some spec) (hform : spec.form = .message inner) {as : List α}
    (h : ∀ a ∈ as, Fits inner (toRecord a)) :
    Fits kind (messageFields number (as.map toRecord)) := by
  induction as with
  | nil => exact .nil
  | cons a as ih =>
    rw [List.forall_mem_cons] at h
    exact .message hspec hform h.1 (ih h.2)

theorem fits_messageField {α : Type} {toRecord : α → Record}
    (hspec : kind.field? number = some spec) (hform : spec.form = .message inner)
    {a? : Option α} (h : ∀ a ∈ a?, Fits inner (toRecord a)) :
    Fits kind (messageField number (a?.map toRecord)) := by
  rw [messageField, Option.toList_map]
  exact fits_messageFields hspec hform fun a ha => h a (Option.mem_toList.mp ha)

end Fits

theorem number_of_field? {kind : MessageKind} {number : Nat} {spec : FieldSpec}
    (h : kind.field? number = some spec) : 0 < number ∧ number < 1000 := by
  have hfields : ∀ spec ∈ kind.fields, 0 < spec.number ∧ spec.number < 1000 := by
    cases kind <;> decide
  have hnumber : spec.number = number := by simpa using List.find?_some h
  rw [← hnumber]
  exact hfields spec (List.mem_of_find?_eq_some h)

theorem keyForm_of_field? {kind : MessageKind} {number : Nat} {spec : FieldSpec}
    (h : kind.field? number = some spec) (w : WireType) :
    KeyForm (keyBytes number w) ⟨number, w⟩ := by
  obtain ⟨hpos, hlt⟩ := number_of_field? h
  have hcode := w.code_lt
  refine keyForm_keyBytes hpos ?_
  have hsize : UInt32.size = 2 ^ 32 := rfl
  omega

theorem length_le_delimitedBytes (contents : List UInt8) :
    contents.length ≤ (delimitedBytes contents).length := by
  simp [delimitedBytes]

theorem scalarForm_encode {form : FieldForm} {v : Value} (h : form.holds v)
    (hlength : v.encode.length < UInt64.size) : ScalarForm form v v.encode := by
  cases form <;> cases v <;> simp only [FieldForm.holds, Bool.false_eq_true] at h
  case varint.varint v => exact .varint (varintForm_varintBytes v.toNat_lt)
  case varints.varint v => exact .single (varintForm_varintBytes v.toNat_lt)
  case fixed64.fixed64 v => exact .fixed64 v
  case text.text s =>
    exact .text (delimitedForm_delimitedBytes
      (Nat.lt_of_le_of_lt (length_le_delimitedBytes _) hlength))
  case bytes.bytes bs =>
    exact .bytes (delimitedForm_delimitedBytes
      (Nat.lt_of_le_of_lt (length_le_delimitedBytes _) hlength))

/-- The bytes of a record are one way of writing it. -/
theorem written_encode {kind : MessageKind} {r : Record} (h : Fits kind r)
    (hlength : r.encode.length < UInt64.size) : Written kind r r.encode := by
  induction h with
  | nil => exact .nil
  | @scalar kind number spec v r hspec hvalue _ ih =>
    have hencode : Record.encode ((number, v) :: r) =
        keyBytes number v.wireType ++ v.encode ++ r.encode := rfl
    rw [hencode] at hlength ⊢
    simp only [List.length_append] at hlength
    exact .scalar hspec (keyForm_of_field? hspec _) (scalarForm_encode hvalue (by omega))
      (ih (by omega))
  | @message kind inner number spec nested r hspec hform _ _ ihnested ih =>
    have hencode : Record.encode ((number, .message nested) :: r) =
        keyBytes number .delimited ++ delimitedBytes nested.encode ++ r.encode := rfl
    have hcontents := length_le_delimitedBytes nested.encode
    rw [hencode] at hlength ⊢
    simp only [List.length_append] at hlength
    exact .message hspec hform (keyForm_of_field? hspec _)
      (delimitedForm_delimitedBytes (by omega)) (ihnested (by omega)) (ih (by omega))

/-- A record is read back from its bytes. -/
theorem decode_encode {kind : MessageKind} {r : Record} (h : Fits kind r)
    (hdepth : r.depth < maxDepth) (hlength : r.encode.length < UInt64.size) :
    Record.decode kind r.encode = .ok r :=
  decode_of_written (written_encode h hlength) hdepth

end SchemaSummary.Wire
