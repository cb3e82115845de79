import SchemaSummary.Wire.Input
import SchemaSummary.Wire.Kind
import SchemaSummary.Wire.Record

/-! # Reading records

  `Record.decode` reads the bytes of one kind of message. Fields that the kind does not define
  are skipped, and so are groups; everything else is kept in order.

  The faults are told apart in this order, which matters where bytes have several of them: the
  key, the wire type against the field's type, the nesting depth, the length, the contents.
-/

namespace SchemaSummary.Wire

/-- How deeply messages and groups may be nested. -/
def maxDepth : Nat := 100

/-- Fails without a place, which `DecodeError.within` adds on the way out. -/
private def fail {α : Type} (cause : Cause) : Except DecodeError α := .error { cause }

/-! ## Parts -/

/-- A varint of at most `count` bytes; the first of these that has its high bit clear ends it.
    The tenth byte of a varint holds its bit 63, so nothing above 1 may stand there. -/
def readDigits : (count : Nat) → Reader Nat
  | 0, _ => fail .varint
  | count + 1, i =>
    match i.next? with
    | none => fail .varint
    | some (b, rest) =>
      if b.toNat < 128 then
        -- Only the last byte that is allowed is read with `count = 0`.
        if count = 0 ∧ 2 ≤ b.toNat then fail .varint else .ok (b.toNat, rest)
      else
        match readDigits count rest with
        | .error e => .error e
        | .ok (high, rest) => .ok (b.toNat - 128 + 128 * high, rest)

/-- A varint of up to sixty-four bits. -/
def readVarint : Reader Nat := readDigits 10

/-- The number and the wire type of a field. -/
structure Key where
  number : Nat
  wireType : WireType
  deriving Repr, BEq, DecidableEq

/-- The key of a field. -/
def readKey : Reader Key := fun i => do
  let (key, rest) ← readVarint i
  if UInt32.size ≤ key then fail (.keyRange key)
  match WireType.ofCode? (key % 8) with
  | none => fail (.wireCode (key % 8))
  | some wireType =>
    if key / 8 = 0 then fail .tagZero else .ok (⟨key / 8, wireType⟩, rest)

/-- The length of a delimited value, which may not exceed what is left. -/
def readLength : Reader Nat := fun i => do
  let (n, rest) ← readVarint i
  if n ≤ rest.left then .ok (n, rest) else fail .underflow

/-- Exactly `n` bytes. -/
def readBytes (n : Nat) : Reader (List UInt8) := fun i =>
  match i.take? n with
  | none => fail .underflow
  | some found => .ok found

/-- Bytes preceded by their length. -/
def readDelimited : Reader (List UInt8) := fun i => do
  let (n, rest) ← readLength i
  readBytes n rest

/-- The number whose bytes are given, low bytes first. -/
def ofFixedBytes : List UInt8 → Nat
  | [] => 0
  | b :: bs => b.toNat + 256 * ofFixedBytes bs

/-- The text whose UTF-8 encoding is given. -/
def ofUtf8Bytes? (bs : List UInt8) : Option String := String.fromUTF8? ⟨bs.toArray⟩

/-- A text preceded by its length. -/
def readText : Reader String := fun i => do
  let (bs, rest) ← readDelimited i
  match ofUtf8Bytes? bs with
  | none => fail .utf8
  | some s => .ok (s, rest)

/-- Reads one part after the other until no more than `limit` bytes are left. Every part takes
    at least one byte, so `count`, the number of bytes left, bounds the number of parts. -/
def readParts {α : Type} (part : Reader (List α)) (limit : Nat) : (count : Nat) → Reader (List α)
  | 0, i => .ok ([], i)
  | count + 1, i =>
    if i.left ≤ limit then .ok ([], i)
    else do
      let (found, rest) ← part i
      let (more, rest) ← readParts part limit count rest
      .ok (found ++ more, rest)

/-- A delimited value that consists of parts, the last of which may not run past its end. -/
def readDelimitedParts {α : Type} (part : Reader (List α)) : Reader (List α) := fun i => do
  let (n, rest) ← readLength i
  -- Parts are bounded by the input, not by the value: an overrun shows only afterwards.
  let limit := rest.left - n
  let (found, rest) ← readParts part limit rest.left rest
  if rest.left = limit then .ok (found, rest) else fail .overrun

/-! ## Fields that the message does not define -/

/-- Passes over the fields of the group `number` up to its end. Every field takes at least one
    byte, so with `count` bytes left there can be no more than `count` fields. -/
def skipGroup (skipField : Key → Input → Except DecodeError Input) (number : Nat) :
    (count : Nat) → Input → Except DecodeError Input
  | 0, _ => fail .varint
  | count + 1, i => do
    let (key, rest) ← readKey i
    if key.wireType = .groupEnd then
      if key.number = number then .ok rest else fail .groupEnd
    else
      let rest ← skipField key rest
      skipGroup skipField number count rest

/-- Passes over the value of a field. -/
def skipField : (depth : Nat) → Key → Input → Except DecodeError Input
  | 0, _, _ => fail .depth
  | depth + 1, key, i =>
    match key.wireType with
    | .varint => (readVarint i).map (·.2)
    | .fixed64 => (readBytes 8 i).map (·.2)
    | .delimited => (readDelimited i).map (·.2)
    | .groupStart => skipGroup (skipField depth) key.number i.left i
    | .groupEnd => fail .groupEnd
    | .fixed32 => (readBytes 4 i).map (·.2)

/-! ## Fields that the message defines -/

/-- Refuses a wire type other than the expected one. -/
def expect (expected found : WireType) : Except DecodeError Unit :=
  if found = expected then .ok () else fail (.wireType found expected)

/-- One integer as a field value. -/
def readNumber : Reader Value := fun i => do
  let (n, rest) ← readVarint i
  .ok (.varint (UInt64.ofNat n), rest)

/-- The values that one occurrence of a defined field holds. -/
def readValues (readMessage : MessageKind → Reader Record) (form : FieldForm)
    (wireType : WireType) : Reader (List Value) := fun i => do
  match form with
  | .varint =>
    expect .varint wireType
    let (v, rest) ← readNumber i
    .ok ([v], rest)
  | .varints =>
    let one : Reader (List Value) := fun i => do
      let (v, rest) ← readNumber i
      .ok ([v], rest)
    if wireType = .delimited then readDelimitedParts one i
    else
      expect .varint wireType
      one i
  | .fixed64 =>
    expect .fixed64 wireType
    let (bs, rest) ← readBytes 8 i
    .ok ([.fixed64 (UInt64.ofNat (ofFixedBytes bs))], rest)
  | .text =>
    expect .delimited wireType
    let (s, rest) ← readText i
    .ok ([.text s], rest)
  | .bytes =>
    expect .delimited wireType
    let (bs, rest) ← readDelimited i
    .ok ([.bytes bs], rest)
  | .message kind =>
    expect .delimited wireType
    let (fields, rest) ← readMessage kind i
    .ok ([.message fields], rest)

/-- Names the field around a failure. -/
def locate {α : Type} (kind : MessageKind) (field : String) (result : Except DecodeError α) :
    Except DecodeError α :=
  result.mapError (DecodeError.within kind.name field)

/-- One field of a message, or nothing if the message does not define it. -/
def readFieldWith (readMessage : MessageKind → Reader Record) (depth : Nat)
    (kind : MessageKind) : Reader Record := fun i => do
  let (key, rest) ← readKey i
  match kind.field? key.number with
  | none =>
    let rest ← skipField depth key rest
    .ok ([], rest)
  | some spec =>
    let (values, rest) ← locate kind spec.name (readValues readMessage spec.form key.wireType rest)
    .ok (values.map fun v => (key.number, v), rest)

/-- One field of a message in which messages may still be nested `depth` deep. -/
def readField : (depth : Nat) → MessageKind → Reader Record
  | 0, kind => readFieldWith (fun _ _ => fail .depth) 0 kind
  | depth + 1, kind =>
    readFieldWith (fun inner => readDelimitedParts (readField depth inner)) (depth + 1) kind

/-- The fields of a message of a given kind. -/
def Record.decode (kind : MessageKind) (bs : List UInt8) : Except DecodeError Record := do
  let i := Input.ofBytes bs
  let (fields, _) ← readParts (readField maxDepth kind) 0 i.left i
  .ok fields

end SchemaSummary.Wire
