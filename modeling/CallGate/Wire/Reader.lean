import CallGate.FixedBytes
import CallGate.Wire.Error

/-!
# Reading with a cursor

A `Reader` is a received byte string with a cursor. A read that needs more bytes than are left
fails, names the place, and leaves the cursor where the missing bytes should have begun. The body
of a counted byte string begins after its length.
-/

namespace CallGate

/-- A received byte string, read up to a position. -/
structure Reader where
  /-- How many bytes have been read. -/
  position : Nat
  /-- The bytes not yet read. -/
  rest : Bytes
  /-- Number of bytes not yet read. -/
  remaining : Nat
  /-- The bytes not yet read have been counted. -/
  remaining_eq : remaining = rest.length
deriving DecidableEq, Repr

/-- A read. -/
abbrev Read := EStateM WireError Reader

namespace Reader

/-- Nothing read yet. -/
def ofBytes (bytes : Bytes) : Reader :=
  ⟨0, bytes, bytes.length, rfl⟩

/-- The reader after this many more bytes. -/
def advance (reader : Reader) (count : Nat) : Reader :=
  ⟨reader.position + count, reader.rest.drop count, reader.remaining - count, by
    rw [List.length_drop, reader.remaining_eq]⟩

/-- Read this many bytes. -/
def take (count : Nat) : Read Bytes := fun reader =>
  if count ≤ reader.remaining then .ok (reader.rest.take count) (reader.advance count)
  else .error (.truncated reader.position count reader.remaining) reader

/-- Read a byte string of a fixed length. -/
def fixed (n : Nat) : Read (FixedBytes n) := fun reader =>
  if h : n ≤ reader.remaining then
    .ok ⟨reader.rest.take n, List.length_take_of_le (reader.remaining_eq ▸ h)⟩ (reader.advance n)
  else
    .error (.truncated reader.position n reader.remaining) reader

/-- Read an address. -/
def address : Read Address :=
  fixed 20

/-- Read a word. -/
def word : Read Word :=
  fixed 32

/-- Read one byte. -/
def byte : Read UInt8 := do
  return UInt8.ofNat (Bytes.toNatLE (← take 1))

/-- Read an unsigned number of 32 bits, least significant byte first. -/
def u32 : Read UInt32 := do
  return UInt32.ofNat (Bytes.toNatLE (← take 4))

/-- Read a signed number of 32 bits in two's complement, least significant byte first. -/
def i32 : Read Int32 := do
  return (← u32).toInt32

/-- Read an unsigned number of 64 bits, least significant byte first. -/
def u64 : Read UInt64 := do
  return UInt64.ofNat (Bytes.toNatLE (← take 8))

/-- Read a length of 32 bits, then as many bytes. -/
def counted : Read Bytes := do
  take (← u32).toNat

/-- Refuse bytes after the last field of a record. -/
def finish (record : Record) : Read Unit := do
  let reader ← get
  unless reader.remaining = 0 do
    throw (.malformedRecord (.trailing reader.remaining record))

/-- What a read makes of a byte string. -/
def run {α : Type} (read : Read α) (bytes : Bytes) : Except WireError α :=
  match read (ofBytes bytes) with
  | .ok value _ => .ok value
  | .error error _ => .error error

end Reader

end CallGate
