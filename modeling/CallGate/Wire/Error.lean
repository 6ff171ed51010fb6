import CallGate.Decimal

/-!
# Faults of wire messages

Why a message cannot be written or read, and the words for it.
-/

namespace CallGate

/-- The kinds of record that must be read to their end. -/
inductive Record where
  | callMessage
  | logRecord
  | program
deriving DecidableEq, Repr

/-- The name of a kind of record. -/
def Record.name : Record → String
  | .callMessage => "call message"
  | .logRecord => "log record"
  | .program => "program"

/-- What is wrong with a call result. -/
inductive ResultFault where
  /-- A field needs more bytes than are left. -/
  | missing (wanted offset available : Nat)
  /-- The declared length of the output is negative. -/
  | negativeLength (declared : Int)
  /-- The declared length of the output is more than what is left. -/
  | outputTooLong (declared available : Nat)
deriving DecidableEq, Repr

/-- The fault in words. -/
def ResultFault.message : ResultFault → String
  | .missing wanted offset available =>
    "need " ++ Decimal.text wanted ++ " bytes at offset " ++ Decimal.text offset ++ ", "
      ++ Decimal.text available ++ " available"
  | .negativeLength declared => "negative output length " ++ Decimal.signedText declared
  | .outputTooLong declared available =>
    "output length " ++ Decimal.text declared ++ " exceeds the " ++ Decimal.text available
      ++ " bytes available"

/-- What is wrong with a record that must be read to its end. -/
inductive RecordFault where
  /-- Bytes are left after the last field. -/
  | trailing (count : Nat) (record : Record)
  /-- There are more topics than a count of 32 bits can say. -/
  | topicCount (count : Nat)
  /-- More topics are declared than the bytes left can hold. -/
  | missingTopics (declared room : Nat)
deriving DecidableEq, Repr

/-- The fault in words. -/
def RecordFault.message : RecordFault → String
  | .trailing count record => Decimal.text count ++ " trailing bytes after " ++ record.name
  | .topicCount count => Decimal.text count ++ " topics"
  | .missingTopics declared room =>
    Decimal.text declared ++ " topics declared, room for " ++ Decimal.text room

/-- Why a message cannot be written or read. -/
inductive WireError where
  /-- The message needs more bytes than the buffer holds. -/
  | bufferOverflow (required capacity : Nat)
  /-- A call result disagrees with its own length field or is cut short. -/
  | malformedResult (fault : ResultFault)
  /-- A record disagrees with its own counts. -/
  | malformedRecord (fault : RecordFault)
  /-- The first byte stands for no kind of call. -/
  | invalidKind (byte : UInt8)
  /-- The input ends before a field is complete. -/
  | truncated (offset wanted available : Nat)
deriving DecidableEq, Repr

/-- The error in words. -/
def WireError.message : WireError → String
  | .bufferOverflow required capacity =>
    "buffer overflow: " ++ Decimal.text required ++ " bytes required, capacity is "
      ++ Decimal.text capacity
  | .malformedResult fault => "malformed call result: " ++ fault.message
  | .malformedRecord fault => "malformed message: " ++ fault.message
  | .invalidKind byte => "invalid call kind: " ++ Decimal.text byte.toNat
  | .truncated offset wanted available =>
    "truncated input: need " ++ Decimal.text wanted ++ " bytes at offset " ++ Decimal.text offset
      ++ ", " ++ Decimal.text available ++ " available"

end CallGate
