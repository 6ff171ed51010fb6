import CallGate.Wire.Field

/-!
# Log records

An event that code reports: data and topics. On the wire a record is the data after its length,
the number of topics, and the topics.
-/

namespace CallGate

/-- An event that code reports. -/
structure LogRecord where
  /-- Free-form data. -/
  data : Bytes
  /-- Words under which the event is found, in order. -/
  topics : List Word
deriving DecidableEq, Inhabited

namespace LogRecord

/-- Size of a record with empty data and no topics. -/
def fixedLength : Nat := 8

/-- Size of a topic. -/
def topicLength : Nat := 32

/-- Size of a record on the wire. -/
def encodedLength (record : LogRecord) : Nat :=
  fixedLength + record.data.length + topicLength * record.topics.length

/-- The fields of a record in the order of the wire. -/
def fields (record : LogRecord) : List Field :=
  .counted record.data :: .u32 (UInt32.ofNat record.topics.length) :: record.topics.map .word

/-- Write a record into a buffer of the given capacity. -/
def encode (record : LogRecord) (capacity : Nat) : Except WireError Bytes :=
  Writer.build capacity do
    if maxCountedLength < record.topics.length then
      throw (.malformedRecord (.topicCount record.topics.length))
    Writer.ensure record.encodedLength
    Field.putAll record.fields

/-- Read this many topics. -/
def readTopics : (count : Nat) → Read (List Word)
  | 0 => return []
  | count + 1 => do
    let topic ← Reader.word
    let topics ← readTopics count
    return topic :: topics

/-- Read a record and nothing after it. The number of topics is checked against the bytes left
before the first topic is read. -/
def read : Read LogRecord := do
  let data ← Reader.counted
  let count := (← Reader.u32).toNat
  let room := (← get).remaining / topicLength
  if room < count then
    throw (.malformedRecord (.missingTopics count room))
  let topics ← readTopics count
  Reader.finish .logRecord
  return { data, topics }

/-- The record that a byte string is. -/
def decode (bytes : Bytes) : Except WireError LogRecord :=
  Reader.run read bytes

end LogRecord

end CallGate
