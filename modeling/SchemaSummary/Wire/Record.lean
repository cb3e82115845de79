/-! # Records

  A message taken apart: its fields in the order in which they were written, each with its
  number and its value. What the numbers mean is a matter of the kind of message.
-/

namespace SchemaSummary.Wire

/-- The value of a field; texts, bytes and nested messages share one layout. -/
inductive Value where
  | varint (v : UInt64)
  | fixed64 (v : UInt64)
  | fixed32 (v : UInt32)
  | bytes (bs : List UInt8)
  | text (s : String)
  | message (fields : List (Nat × Value))
  deriving Repr, BEq, Inhabited

/-- The fields of a message, in the order in which they were written. -/
abbrev Record := List (Nat × Value)

namespace Value

/-- The number of a varint. -/
def varint? : Value → Option UInt64
  | .varint v => some v
  | _ => none

/-- The text of a text value. -/
def text? : Value → Option String
  | .text s => some s
  | _ => none

/-- The fields of a nested message. -/
def message? : Value → Option Record
  | .message fields => some fields
  | _ => none

end Value

namespace Record

/-- All values of one field, in order. -/
def values (number : Nat) (r : Record) : List Value :=
  (r.filter fun field => field.1 == number).map (·.2)

@[simp] theorem values_nil (number : Nat) : values number [] = [] := rfl

@[simp] theorem values_append (number : Nat) (r s : Record) :
    values number (r ++ s) = values number r ++ values number s := by
  simp [values]

@[simp] theorem values_cons_self (number : Nat) (v : Value) (r : Record) :
    values number ((number, v) :: r) = v :: values number r := by
  simp [values]

@[simp] theorem values_cons_ne {number other : Nat} (h : other ≠ number) (v : Value)
    (r : Record) : values number ((other, v) :: r) = values number r := by
  simp [values, h]

/-- The number held by a field that is not repeated: the last one counts. -/
def varint? (number : Nat) (r : Record) : Option UInt64 :=
  ((r.values number).filterMap Value.varint?).getLast?

/-- The text held by a field that is not repeated: the last one counts. -/
def text? (number : Nat) (r : Record) : Option String :=
  ((r.values number).filterMap Value.text?).getLast?

/-- The texts held by a repeated field. -/
def texts (number : Nat) (r : Record) : List String :=
  (r.values number).filterMap Value.text?

/-- Texts are not merged: those of several records follow each other. -/
theorem texts_flatten (number : Nat) (rs : List Record) :
    texts number rs.flatten = (rs.map (texts number)).flatten := by
  induction rs with
  | nil => rfl
  | cons r rs ih =>
    simp only [List.flatten_cons, List.map_cons, ← ih, texts, values_append,
      List.filterMap_append]

/-- The messages held by a repeated field. -/
def messages (number : Nat) (r : Record) : List Record :=
  (r.values number).filterMap Value.message?

/-- The message held by a field that is not repeated: several are merged into one. -/
def message? (number : Nat) (r : Record) : Option Record :=
  match r.messages number with
  | [] => none
  | m :: ms => some (m :: ms).flatten

end Record

/-! ## Building records -/

/-- A field that holds a text, if there is one. -/
def textField (number : Nat) (s : Option String) : Record :=
  s.toList.map fun s => (number, .text s)

/-- A repeated field that holds texts. -/
def textFields (number : Nat) (ss : List String) : Record :=
  ss.map fun s => (number, .text s)

/-- A field that holds a number, if there is one. -/
def varintField (number : Nat) (v : Option UInt64) : Record :=
  v.toList.map fun v => (number, .varint v)

/-- A field that holds a message, if there is one. -/
def messageField (number : Nat) (m : Option Record) : Record :=
  m.toList.map fun m => (number, .message m)

/-- A repeated field that holds messages. -/
def messageFields (number : Nat) (ms : List Record) : Record :=
  ms.map fun m => (number, .message m)

namespace Record

/-- The values of a field that is built from a list of them. -/
theorem values_map {α : Type} (field : Nat) (value : α → Value) (as : List α) (number : Nat) :
    values number (as.map fun a => (field, value a)) =
      if field = number then as.map value else [] := by
  induction as with
  | nil => simp
  | cons a as ih =>
    by_cases h : field = number
    · rw [if_pos h] at ih ⊢
      subst h
      rw [List.map_cons, values_cons_self, ih, List.map_cons]
    · rw [if_neg h] at ih ⊢
      rw [List.map_cons, values_cons_ne h, ih]

@[simp] theorem values_textField (field : Nat) (s : Option String) (number : Nat) :
    values number (textField field s) =
      if field = number then s.toList.map Value.text else [] :=
  values_map field Value.text s.toList number

@[simp] theorem values_textFields (field : Nat) (ss : List String) (number : Nat) :
    values number (textFields field ss) = if field = number then ss.map Value.text else [] :=
  values_map field Value.text ss number

@[simp] theorem values_varintField (field : Nat) (v : Option UInt64) (number : Nat) :
    values number (varintField field v) =
      if field = number then v.toList.map Value.varint else [] :=
  values_map field Value.varint v.toList number

@[simp] theorem values_messageField (field : Nat) (m : Option Record) (number : Nat) :
    values number (messageField field m) =
      if field = number then m.toList.map Value.message else [] :=
  values_map field Value.message m.toList number

@[simp] theorem values_messageFields (field : Nat) (ms : List Record) (number : Nat) :
    values number (messageFields field ms) =
      if field = number then ms.map Value.message else [] :=
  values_map field Value.message ms number

/-! ### Reading what was built -/

section Reading

variable {number : Nat} {r : Record}

theorem texts_of_values {ss : List String} (h : r.values number = ss.map Value.text) :
    r.texts number = ss := by
  rw [texts, h, List.filterMap_map]
  exact List.filterMap_some

theorem text?_of_values {s : Option String} (h : r.values number = s.toList.map Value.text) :
    r.text? number = s := by
  rw [text?, ← texts, texts_of_values h]
  cases s <;> rfl

theorem varint?_of_values {v : Option UInt64} (h : r.values number = v.toList.map Value.varint) :
    r.varint? number = v := by
  rw [varint?, h]
  cases v <;> rfl

theorem messages_of_values {ms : List Record} (h : r.values number = ms.map Value.message) :
    r.messages number = ms := by
  rw [messages, h, List.filterMap_map]
  exact List.filterMap_some

theorem message?_of_values {m : Option Record} (h : r.values number = m.toList.map Value.message) :
    r.message? number = m := by
  rw [message?, messages_of_values h]
  cases m with
  | none => rfl
  | some m => exact congrArg some (List.append_nil m)

end Reading

end Record

end SchemaSummary.Wire
