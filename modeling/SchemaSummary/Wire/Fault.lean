/-! # Decoding failures

  Why bytes are not a message of the expected kind, and where in the message the fault lies.

  A fault is located by the fields around it, from the innermost outwards. The key of a field
  and the contents of a field that the message does not define belong to no field, so a fault
  there is located by the enclosing fields only.
-/

namespace SchemaSummary.Wire

/-- How the value of a field is laid out, which its key announces. -/
inductive WireType where
  | varint
  | fixed64
  | delimited
  | groupStart
  | groupEnd
  | fixed32
  deriving Repr, BEq, DecidableEq, Inhabited

namespace WireType

/-- The three low bits of a key. -/
def code : WireType → Nat
  | .varint => 0
  | .fixed64 => 1
  | .delimited => 2
  | .groupStart => 3
  | .groupEnd => 4
  | .fixed32 => 5

/-- The wire type that a key announces; 6 and 7 are not used. -/
def ofCode? : Nat → Option WireType
  | 0 => some .varint
  | 1 => some .fixed64
  | 2 => some .delimited
  | 3 => some .groupStart
  | 4 => some .groupEnd
  | 5 => some .fixed32
  | _ => none

@[simp] theorem ofCode?_code (w : WireType) : ofCode? w.code = some w := by cases w <;> rfl

/-- The name of a wire type in messages. -/
def name : WireType → String
  | .varint => "Varint"
  | .fixed64 => "SixtyFourBit"
  | .delimited => "LengthDelimited"
  | .groupStart => "StartGroup"
  | .groupEnd => "EndGroup"
  | .fixed32 => "ThirtyTwoBit"

end WireType

/-- What is wrong with the bytes. -/
inductive Cause where
  /-- A varint has no end, or is longer than sixty-four bits. -/
  | varint
  /-- A key does not fit thirty-two bits. -/
  | keyRange (key : Nat)
  /-- A key announces a wire type that is not used. -/
  | wireCode (code : Nat)
  /-- A key has the field number zero. -/
  | tagZero
  /-- A field is laid out in another way than its type demands. -/
  | wireType (found expected : WireType)
  /-- Fewer bytes are left than a value needs. -/
  | underflow
  /-- A text is not encoded in UTF-8. -/
  | utf8
  /-- The last part of a delimited value runs past the value's end. -/
  | overrun
  /-- Messages and groups are nested too deeply. -/
  | depth
  /-- A group ends that is not open. -/
  | groupEnd
  /-- Another fault, in its own words. -/
  | other (description : String)
  deriving Repr, BEq, DecidableEq, Inhabited

/-- The wording of a fault. -/
def Cause.message : Cause → String
  | .varint => "invalid varint"
  | .keyRange key => "invalid key value: " ++ toString key
  | .wireCode code => "invalid wire type value: " ++ toString code
  | .tagZero => "invalid tag value: 0"
  | .wireType found expected =>
    "invalid wire type: " ++ found.name ++ " (expected " ++ expected.name ++ ")"
  | .underflow => "buffer underflow"
  | .utf8 => "invalid string value: data is not UTF-8 encoded"
  | .overrun => "delimited length exceeded"
  | .depth => "recursion limit reached"
  | .groupEnd => "unexpected end group tag"
  | .other description => description

/-- A fault and the fields around it, innermost first, each with the message it belongs to. -/
structure DecodeError where
  cause : Cause
  path : List (String × String) := []
  deriving Repr, BEq, DecidableEq, Inhabited

/-- The same fault, seen from outside the field `field` of `message`. -/
def DecodeError.within (message field : String) (e : DecodeError) : DecodeError :=
  { e with path := e.path ++ [(message, field)] }

/-- The wording of a failure: its place, then its cause. -/
def DecodeError.message (e : DecodeError) : String :=
  "failed to decode Protobuf message: " ++
    String.join (e.path.map fun p => p.1 ++ "." ++ p.2 ++ ": ") ++ e.cause.message

end SchemaSummary.Wire
