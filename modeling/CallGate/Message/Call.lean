import CallGate.Message.Kind
import CallGate.Wire.Field

/-!
# Call messages

What the interpreter asks of its host when code calls other code. On the wire a message is its
kind, flags, depth, gas, destination, sender, input after its length, value and salt. All but the
input take 125 bytes.
-/

namespace CallGate

/-- A nested call. -/
structure CallMessage where
  /-- How the code is entered. -/
  kind : CallKind
  /-- The flags of the call. -/
  flags : CallFlags
  /-- How many calls surround this one. -/
  depth : UInt32
  /-- The most gas that the call may use. -/
  gas : UInt64
  /-- The account called. -/
  destination : Address
  /-- The account that calls. -/
  sender : Address
  /-- The input of the code. -/
  input : Bytes
  /-- The amount sent along, an unsigned 256-bit number. -/
  value : Word
  /-- The salt of a contract made with `create2`. -/
  salt : Word
deriving DecidableEq, Inhabited

namespace CallMessage

/-- Size of a message with empty input. -/
def fixedLength : Nat := 125

/-- Size of a message on the wire. -/
def encodedLength (message : CallMessage) : Nat :=
  fixedLength + message.input.length

/-- Whether the call must not change state. -/
def isStatic (message : CallMessage) : Bool :=
  message.flags.isStatic

/-- The fields of a message in the order of the wire. -/
def fields (message : CallMessage) : List Field :=
  [.byte message.kind.byte, .u32 message.flags.bits, .u32 message.depth, .u64 message.gas,
    .address message.destination, .address message.sender, .counted message.input,
    .word message.value, .word message.salt]

/-- Write a message into a buffer of the given capacity. -/
def encode (message : CallMessage) (capacity : Nat) : Except WireError Bytes :=
  Writer.build capacity do
    Writer.ensure message.encodedLength
    Field.putAll message.fields

/-- Read a message and nothing after it. -/
def read : Read CallMessage := do
  let kind ← CallKind.read
  let flags ← Reader.u32
  let depth ← Reader.u32
  let gas ← Reader.u64
  let destination ← Reader.address
  let sender ← Reader.address
  let input ← Reader.counted
  let value ← Reader.word
  let salt ← Reader.word
  Reader.finish .callMessage
  return { kind, flags := ⟨flags⟩, depth, gas, destination, sender, input, value, salt }

/-- The message that a byte string is. -/
def decode (bytes : Bytes) : Except WireError CallMessage :=
  Reader.run read bytes

end CallMessage

end CallGate
