import CallGate.Wire.Reader
import CallGate.Wire.Writer

/-!
# Fields of wire messages

The values that messages are made of, each with its bytes, and the types under which they are read
back.
-/

namespace CallGate

/-- A value in a message. -/
inductive Field where
  | byte (value : UInt8)
  | u32 (value : UInt32)
  | i32 (value : Int32)
  | u64 (value : UInt64)
  /-- A byte string whose length is known from elsewhere. -/
  | raw (bytes : Bytes)
  /-- A byte string after its length. -/
  | counted (bytes : Bytes)
  | address (value : Address)
  | word (value : Word)
deriving DecidableEq

/-- The type of a field. -/
inductive FieldType where
  | byte
  | u32
  | i32
  | u64
  /-- A byte string of a length known from elsewhere. -/
  | raw (length : Nat)
  /-- A byte string after its length. -/
  | counted
  | address
  | word
deriving DecidableEq, Repr

namespace Field

/-- The type under which a field is read back. -/
def type : Field → FieldType
  | .byte _ => .byte
  | .u32 _ => .u32
  | .i32 _ => .i32
  | .u64 _ => .u64
  | .raw bytes => .raw bytes.length
  | .counted _ => .counted
  | .address _ => .address
  | .word _ => .word

/-- The bytes of a field. -/
def encoding : Field → Bytes
  | .byte value => [value]
  | .u32 value => Bytes.ofNatLE 4 value.toNat
  | .i32 value => Bytes.ofNatLE 4 value.toUInt32.toNat
  | .u64 value => Bytes.ofNatLE 8 value.toNat
  | .raw bytes => bytes
  | .counted bytes => Bytes.ofNatLE 4 bytes.length ++ bytes
  | .address value => value.bytes
  | .word value => value.bytes

/-- Write a field. -/
def put : Field → Write Unit
  | .byte value => Writer.putByte value
  | .u32 value => Writer.putU32 value
  | .i32 value => Writer.putI32 value
  | .u64 value => Writer.putU64 value
  | .raw bytes => Writer.put bytes
  | .counted bytes => Writer.putCounted bytes
  | .address value => Writer.put value.bytes
  | .word value => Writer.put value.bytes

/-- Write fields one after the other. -/
def putAll (fields : List Field) : Write Unit :=
  fields.forM put

/-- The bytes of fields one after the other. -/
def encodings (fields : List Field) : Bytes :=
  fields.flatMap encoding

end Field

/-- Read a field of a type. -/
def FieldType.read : FieldType → Read Field
  | .byte => .byte <$> Reader.byte
  | .u32 => .u32 <$> Reader.u32
  | .i32 => .i32 <$> Reader.i32
  | .u64 => .u64 <$> Reader.u64
  | .raw length => .raw <$> Reader.take length
  | .counted => .counted <$> Reader.counted
  | .address => .address <$> Reader.address
  | .word => .word <$> Reader.word

end CallGate
