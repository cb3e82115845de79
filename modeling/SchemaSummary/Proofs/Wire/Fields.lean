import SchemaSummary.Proofs.Wire.Varint

/-! # Fields

  The ways of writing the key and the value of a field, and that each of them is read as what was
  written. A field that the message does not define is passed over.
-/

namespace SchemaSummary.Wire

/-! ## Keys -/

/-- The ways of writing the key of a field. -/
structure KeyForm (bs : List UInt8) (key : Key) : Prop where
  varint : VarintForm bs (key.number * 8 + key.wireType.code)
  number_pos : 0 < key.number
  lt : key.number * 8 + key.wireType.code < UInt32.size

theorem WireType.code_lt (w : WireType) : w.code < 8 := by
  cases w <;> decide

theorem reads_key {bs : List UInt8} {key : Key} (h : KeyForm bs key) : Reads readKey bs key := by
  intro rest
  have hcode := key.wireType.code_lt
  have hpos := h.number_pos
  have hnumber : (key.number * 8 + key.wireType.code) / 8 = key.number := by omega
  have hwire : (key.number * 8 + key.wireType.code) % 8 = key.wireType.code := by omega
  rw [readKey, reads_varint h.varint rest]
  simp only [ok_bind, if_neg (Nat.not_le.mpr h.lt), hnumber, hwire, WireType.ofCode?_code,
    if_neg (Nat.pos_iff_ne_zero.mp hpos)]

/-- The writer produces one of the forms of a key. -/
theorem keyForm_keyBytes {number : Nat} {w : WireType} (hpos : 0 < number)
    (hlt : number * 8 + w.code < UInt32.size) : KeyForm (keyBytes number w) ⟨number, w⟩ where
  varint := varintForm_varintBytes (Nat.lt_trans hlt (by decide))
  number_pos := hpos
  lt := hlt

/-! ## Delimited values -/

/-- The ways of writing bytes that are preceded by their length. -/
def DelimitedForm (bs contents : List UInt8) : Prop :=
  ∃ length, VarintForm length contents.length ∧ bs = length ++ contents

theorem reads_length {length contents : List UInt8} (h : VarintForm length contents.length)
    (rest : List UInt8) : readLength (.ofBytes (length ++ (contents ++ rest))) =
      .ok (contents.length, .ofBytes (contents ++ rest)) := by
  rw [readLength, reads_varint h]
  simp [ok_bind]

theorem reads_bytes (bs : List UInt8) : Reads (readBytes bs.length) bs bs := by
  intro rest
  rw [readBytes, Input.take?_ofBytes_append]

theorem reads_delimited {bs contents : List UInt8} (h : DelimitedForm bs contents) :
    Reads readDelimited bs contents := by
  intro rest
  obtain ⟨length, hlength, rfl⟩ := h
  rw [readDelimited, List.append_assoc, reads_length hlength, ok_bind]
  exact reads_bytes contents rest

/-- The writer produces one of the forms of delimited bytes. -/
theorem delimitedForm_delimitedBytes {contents : List UInt8} (h : contents.length < UInt64.size) :
    DelimitedForm (delimitedBytes contents) contents :=
  ⟨_, varintForm_varintBytes h, rfl⟩

/-- A text is read back from its encoding. -/
theorem ofUtf8Bytes?_utf8Bytes (s : String) : ofUtf8Bytes? (utf8Bytes s) = some s := by
  simp only [ofUtf8Bytes?, utf8Bytes, String.fromUTF8?, Array.toArray_toList]
  exact dif_pos s.isValidUTF8

theorem reads_text {bs : List UInt8} {s : String} (h : DelimitedForm bs (utf8Bytes s)) :
    Reads readText bs s := by
  intro rest
  rw [readText, reads_delimited h rest]
  simp only [ok_bind, ofUtf8Bytes?_utf8Bytes]

/-! ## Values of fixed width -/

theorem length_fixedBytes (count n : Nat) : (fixedBytes count n).length = count := by
  induction count generalizing n with
  | zero => rfl
  | succ count ih => rw [fixedBytes, List.length_cons, ih]

theorem ofFixedBytes_fixedBytes (count n : Nat) :
    ofFixedBytes (fixedBytes count n) = n % 256 ^ count := by
  induction count generalizing n with
  | zero => simp [fixedBytes, ofFixedBytes, Nat.mod_one]
  | succ count ih =>
    rw [fixedBytes, ofFixedBytes, ih, Nat.pow_succ, Nat.mul_comm (256 ^ count), Nat.mod_mul]
    simp

/-! ## Values that the message defines -/

/-- The ways of writing a value that is not a message, for a field that holds its values so. -/
inductive ScalarForm : FieldForm → Value → List UInt8 → Prop
  | varint {bs : List UInt8} {v : UInt64} (h : VarintForm bs v.toNat) :
      ScalarForm .varint (.varint v) bs
  /-- An integer of a repeated field that stands by itself. -/
  | single {bs : List UInt8} {v : UInt64} (h : VarintForm bs v.toNat) :
      ScalarForm .varints (.varint v) bs
  | fixed64 (v : UInt64) : ScalarForm .fixed64 (.fixed64 v) (fixedBytes 8 v.toNat)
  | text {bs : List UInt8} {s : String} (h : DelimitedForm bs (utf8Bytes s)) :
      ScalarForm .text (.text s) bs
  | bytes {bs contents : List UInt8} (h : DelimitedForm bs contents) :
      ScalarForm .bytes (.bytes contents) bs

theorem reads_number {bs : List UInt8} {v : UInt64} (h : VarintForm bs v.toNat) :
    Reads readNumber bs (.varint v) := by
  intro rest
  rw [readNumber, reads_varint h rest]
  simp only [ok_bind, UInt64.ofNat_toNat]

section Values

variable {readMessage : MessageKind → Reader Record}

theorem reads_scalar {form : FieldForm} {v : Value} {bs : List UInt8} (h : ScalarForm form v bs) :
    Reads (readValues readMessage form v.wireType) bs [v] := by
  intro rest
  cases h with
  | varint h =>
    simp [readValues, Value.wireType, expect, reads_number h rest, ok_bind]
  | single h =>
    simp [readValues, Value.wireType, expect, reads_number h rest, ok_bind]
  | fixed64 v =>
    have h := reads_bytes (fixedBytes 8 v.toNat) rest
    rw [length_fixedBytes] at h
    simp [readValues, Value.wireType, expect, h, ok_bind, ofFixedBytes_fixedBytes]
  | text h =>
    simp [readValues, Value.wireType, expect, reads_text h rest, ok_bind]
  | bytes h =>
    simp [readValues, Value.wireType, expect, reads_delimited h rest, ok_bind]

/-- A message is read as a value if its fields are read. -/
theorem reads_message {kind : MessageKind} {bs : List UInt8} {fields : Record}
    (h : Reads (readMessage kind) bs fields) :
    Reads (readValues readMessage (.message kind) .delimited) bs [.message fields] := by
  intro rest
  simp [readValues, expect, h rest, ok_bind]

end Values

/-! ## Values that the message does not define -/

/-- The ways of writing a value of which only the wire type is known; groups are left out. -/
inductive PassedOver : WireType → List UInt8 → Prop
  | varint {bs : List UInt8} {n : Nat} (h : VarintForm bs n) : PassedOver .varint bs
  | fixed64 {bs : List UInt8} (h : bs.length = 8) : PassedOver .fixed64 bs
  | delimited {bs contents : List UInt8} (h : DelimitedForm bs contents) : PassedOver .delimited bs
  | fixed32 {bs : List UInt8} (h : bs.length = 4) : PassedOver .fixed32 bs

theorem skipField_of_passedOver {key : Key} {bs : List UInt8} (h : PassedOver key.wireType bs)
    (depth : Nat) (rest : List UInt8) :
    skipField (depth + 1) key (.ofBytes (bs ++ rest)) = .ok (.ofBytes rest) := by
  obtain ⟨number, wireType⟩ := key
  cases h with
  | varint h => simp [skipField, reads_varint h rest, Except.map]
  | fixed64 h => simp [skipField, ← h, reads_bytes bs rest, Except.map]
  | delimited h => simp [skipField, reads_delimited h rest, Except.map]
  | fixed32 h => simp [skipField, ← h, reads_bytes bs rest, Except.map]

/-! ## Whole fields -/

section Fields

variable {readMessage : MessageKind → Reader Record} {depth : Nat} {kind : MessageKind}

/-- A field that the message defines is read as its value. -/
theorem reads_field {key : Key} {spec : FieldSpec} {v : Value} {kb vb : List UInt8}
    (hspec : kind.field? key.number = some spec) (hkey : KeyForm kb key)
    (hvalue : Reads (readValues readMessage spec.form key.wireType) vb [v]) :
    Reads (readFieldWith readMessage depth kind) (kb ++ vb) [(key.number, v)] := by
  intro rest
  rw [readFieldWith, List.append_assoc, reads_key hkey]
  simp only [ok_bind, hspec, hvalue rest]
  rfl

/-- A field that the message does not define is read as nothing. -/
theorem reads_passedOver {key : Key} {kb vb : List UInt8}
    (hspec : kind.field? key.number = none) (hkey : KeyForm kb key)
    (hvalue : PassedOver key.wireType vb) :
    Reads (readFieldWith readMessage (depth + 1) kind) (kb ++ vb) [] := by
  intro rest
  rw [readFieldWith, List.append_assoc, reads_key hkey]
  simp only [ok_bind, hspec, skipField_of_passedOver hvalue depth rest]

end Fields

end SchemaSummary.Wire
