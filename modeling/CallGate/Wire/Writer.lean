import CallGate.Bytes
import CallGate.Wire.Error

/-!
# Writing under a capacity

A `Writer` collects bytes up to a capacity. An operation that does not fit fails and leaves the
writer as it was. Sizes are counted in 64 bits: a sum that exceeds them is reported as the largest
size there is.
-/

namespace CallGate

/-- The largest size that can be counted. -/
def maxSize : Nat := 0xFFFFFFFFFFFFFFFF

/-- The largest length that a length prefix of 32 bits can say. -/
def maxCountedLength : Nat := 0xFFFFFFFF

/-- Bytes collected under a capacity. -/
structure Writer where
  /-- How many bytes there may be. -/
  capacity : Nat
  /-- The bytes so far, in an array that grows at its end. -/
  buffer : Array UInt8
deriving DecidableEq, Repr

/-- An operation on a writer. -/
abbrev Write := EStateM WireError Writer

namespace Writer

/-- A writer that has written nothing. -/
def ofCapacity (capacity : Nat) : Writer :=
  ⟨capacity, #[]⟩

/-- The bytes written, first byte first. -/
def written (writer : Writer) : Bytes :=
  writer.buffer.toList

/-- Number of bytes written. -/
def size (writer : Writer) : Nat :=
  writer.buffer.size

/-- Whether nothing is written. -/
def isEmpty (writer : Writer) : Bool :=
  writer.buffer.isEmpty

/-- The writer with bytes written after those it has, whatever its capacity. -/
def append (writer : Writer) (bytes : Bytes) : Writer :=
  { writer with buffer := writer.buffer ++ bytes }

/-- Number of bytes that still fit. -/
def remaining (writer : Writer) : Nat :=
  writer.capacity - writer.size

/-- Fail unless this many more bytes fit. -/
def ensure (additional : Nat) : Write Unit := fun writer =>
  let required := writer.size + additional
  if required ≤ maxSize then
    if required ≤ writer.capacity then .ok () writer
    else .error (.bufferOverflow required writer.capacity) writer
  else
    -- The number of bytes that would be needed cannot be counted.
    .error (.bufferOverflow maxSize writer.capacity) writer

/-- Write a byte string. -/
def put (bytes : Bytes) : Write Unit := do
  ensure bytes.length
  modify fun writer => writer.append bytes

/-- Write one byte. -/
def putByte (value : UInt8) : Write Unit :=
  put [value]

/-- Write an unsigned number of 32 bits, least significant byte first. -/
def putU32 (value : UInt32) : Write Unit :=
  put (Bytes.ofNatLE 4 value.toNat)

/-- Write a signed number of 32 bits in two's complement, least significant byte first. -/
def putI32 (value : Int32) : Write Unit :=
  putU32 value.toUInt32

/-- Write an unsigned number of 64 bits, least significant byte first. -/
def putU64 (value : UInt64) : Write Unit :=
  put (Bytes.ofNatLE 8 value.toNat)

/-- Write the length of a byte string in 32 bits, then the byte string. -/
def putCounted (bytes : Bytes) : Write Unit := do
  if bytes.length ≤ maxCountedLength then
    put (Bytes.ofNatLE 4 bytes.length ++ bytes)
  else
    throw (.bufferOverflow bytes.length maxCountedLength)

/-- The bytes that an operation writes into an empty writer. -/
def build (capacity : Nat) (operation : Write Unit) : Except WireError Bytes :=
  match operation (ofCapacity capacity) with
  | .ok _ writer => .ok writer.written
  | .error error _ => .error error

/-- The size of a writer is the number of bytes written. -/
@[simp]
theorem length_written (writer : Writer) : writer.written.length = writer.size := by
  simp [written, size]

/-- What is appended stands behind what was written before. -/
@[simp]
theorem written_append (writer : Writer) (bytes : Bytes) :
    (writer.append bytes).written = writer.written ++ bytes := by
  simp [written, append]

@[simp]
theorem capacity_append (writer : Writer) (bytes : Bytes) :
    (writer.append bytes).capacity = writer.capacity := rfl

end Writer

end CallGate
