import SchemaSummary.Wire.Fault

/-! # Input

  Bytes still to be read, with their number at hand. All reading is bounded by the whole input:
  a value may run past the end of the message that encloses it, which is then noticed at that
  end.
-/

namespace SchemaSummary.Wire

/-- Bytes still to be read, and how many there are. -/
structure Input where
  bytes : List UInt8
  left : Nat
  left_eq : left = bytes.length

namespace Input

/-- The input made of the given bytes. -/
def ofBytes (bs : List UInt8) : Input := ⟨bs, bs.length, rfl⟩

@[simp] theorem bytes_ofBytes (bs : List UInt8) : (ofBytes bs).bytes = bs := rfl

@[simp] theorem left_ofBytes (bs : List UInt8) : (ofBytes bs).left = bs.length := rfl

/-- An input is its bytes. -/
theorem ofBytes_bytes (i : Input) : ofBytes i.bytes = i := by
  obtain ⟨bs, left, h⟩ := i
  subst h
  rfl

/-- The next byte and what follows it. -/
def next? : Input → Option (UInt8 × Input)
  | ⟨[], _, _⟩ => none
  | ⟨b :: bs, left, h⟩ => some (b, ⟨bs, left - 1, by simp [h]⟩)

@[simp] theorem next?_ofBytes_cons (b : UInt8) (bs : List UInt8) :
    (ofBytes (b :: bs)).next? = some (b, ofBytes bs) := rfl

/-- The next `n` bytes and what follows them, if there are as many. -/
def take? (n : Nat) (i : Input) : Option (List UInt8 × Input) :=
  if n ≤ i.left then
    some (i.bytes.take n, ⟨i.bytes.drop n, i.left - n, by simp [i.left_eq]⟩)
  else none

@[simp] theorem take?_ofBytes_append (bs rest : List UInt8) :
    (ofBytes (bs ++ rest)).take? bs.length = some (bs, ofBytes rest) := by
  simp [take?, ofBytes]

end Input

/-- A step that reads a value from the front of an input. -/
abbrev Reader (α : Type) := Input → Except DecodeError (α × Input)

end SchemaSummary.Wire
