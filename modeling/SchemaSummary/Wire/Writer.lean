import SchemaSummary.Wire.Fault
import SchemaSummary.Wire.Record

/-! # Writing records

  The bytes of a record: for every field its key, a varint of number and wire type, and then
  its value. Texts, bytes and messages are preceded by their length.
-/

namespace SchemaSummary.Wire

/-- A number in base 128, low digits first; every byte but the last has its high bit set. -/
def varintBytes (n : Nat) : List UInt8 :=
  if n < 128 then [n.toUInt8] else (n % 128 + 128).toUInt8 :: varintBytes (n / 128)
termination_by n
decreasing_by omega

/-- The `count` low bytes of a number, low bytes first. -/
def fixedBytes : (count n : Nat) → List UInt8
  | 0, _ => []
  | count + 1, n => n.toUInt8 :: fixedBytes count (n / 256)

/-- The key of a field. -/
def keyBytes (number : Nat) (wireType : WireType) : List UInt8 :=
  varintBytes (number * 8 + wireType.code)

/-- Bytes preceded by their length. -/
def delimitedBytes (bs : List UInt8) : List UInt8 := varintBytes bs.length ++ bs

/-- The UTF-8 encoding of a text. -/
def utf8Bytes (s : String) : List UInt8 := s.toUTF8.data.toList

/-- The wire type of a value. -/
def Value.wireType : Value → WireType
  | .varint _ => .varint
  | .fixed64 _ => .fixed64
  | .fixed32 _ => .fixed32
  | .bytes _ | .text _ | .message _ => .delimited

mutual

/-- The bytes of a value, without its key. -/
def Value.encode : Value → List UInt8
  | .varint v => varintBytes v.toNat
  | .fixed64 v => fixedBytes 8 v.toNat
  | .fixed32 v => fixedBytes 4 v.toNat
  | .bytes bs => delimitedBytes bs
  | .text s => delimitedBytes (utf8Bytes s)
  | .message fields => delimitedBytes (Value.encodeFields fields)

/-- The bytes of fields, one after the other. -/
def Value.encodeFields : List (Nat × Value) → List UInt8
  | [] => []
  | (number, v) :: rest => keyBytes number v.wireType ++ v.encode ++ Value.encodeFields rest

end

/-- The bytes of a record. -/
def Record.encode (r : Record) : List UInt8 := Value.encodeFields r

end SchemaSummary.Wire
