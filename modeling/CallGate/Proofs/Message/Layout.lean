import CallGate.Message.Call
import CallGate.Message.Log
import CallGate.Message.Program
import CallGate.Message.Result
import CallGate.Proofs.Wire.Capacity
import CallGate.Proofs.Wire.Cursor

/-!
# The layout of messages

A message on the wire is the encodings of its fields one after the other. It is written exactly
when its lengths can be counted and it fits the buffer, and what is written is read back.

* `CallMessage.encode_eq_ok_iff`, `LogRecord.encode_eq_ok_iff`, `Program.encode_eq_ok_iff`,
  `CallResult.encode_eq_ok_iff`: when a message is written, and as what.
* `CallMessage.decode_encoding`, `LogRecord.decode_encoding`, `Program.decode_encoding`: what is
  written is read back.
-/

namespace CallGate

/-- The kind of a call is read back from its byte. -/
theorem CallKind.read_append (kind : CallKind) (position : Nat) (rest : Bytes) :
    CallKind.read (.facing position ([kind.byte] ++ rest)) =
      .ok kind (.facing (position + 1) rest) := by
  rw [CallKind.read, Reader.bind_of_ok (Reader.byte_append _ _ _), CallKind.ofByte?_byte]
  rfl

/-! ## Call messages -/

namespace CallMessage

/-- A message on the wire. -/
def encoding (message : CallMessage) : Bytes :=
  Field.encodings message.fields

/-- The encoding is the output with its length, the created address and the gas, if it is told. -/
theorem encoding_eq (message : CallMessage) :
    message.encoding =
      [message.kind.byte] ++ (Bytes.ofNatLE 4 message.flags.bits.toNat ++
        (Bytes.ofNatLE 4 message.depth.toNat ++ (Bytes.ofNatLE 8 message.gas.toNat ++
          (message.destination.bytes ++ (message.sender.bytes ++
            (Bytes.ofNatLE 4 message.input.length ++ (message.input ++
              (message.value.bytes ++ (message.salt.bytes ++ []))))))))) := by
  simp only [encoding, fields, Field.encodings_cons, Field.encodings_nil, Field.encoding,
    List.append_assoc]

/-- The encoding has the length that is asked for before it is written. -/
theorem length_encoding (message : CallMessage) :
    message.encoding.length = message.encodedLength := by
  simp only [encoding_eq, List.length_append, List.length_cons, List.length_nil,
    Bytes.length_ofNatLE, FixedBytes.length_bytes, encodedLength, fixedLength]
  omega

/-- Only the length of the input might be too large to be counted. -/
theorem countable_fields_iff (message : CallMessage) :
    (∀ field ∈ message.fields, field.Countable) ↔ message.input.length ≤ maxCountedLength := by
  simp [fields, Field.Countable]

theorem encodedLength_le_maxSize {message : CallMessage}
    (hcount : message.input.length ≤ maxCountedLength) : message.encodedLength ≤ maxSize := by
  simp only [encodedLength, fixedLength, maxCountedLength, maxSize] at hcount ⊢
  omega

/-- A message is written exactly when its input can be counted and it fits. -/
theorem encode_eq_ok_iff (message : CallMessage) (capacity : Nat) (bytes : Bytes) :
    message.encode capacity = .ok bytes ↔
      message.input.length ≤ maxCountedLength ∧ message.encodedLength ≤ capacity ∧
        bytes = message.encoding := by
  rw [encode, Writer.build_fields_eq_ok_iff message.length_encoding, countable_fields_iff]
  constructor
  · rintro ⟨hcount, hcapacity, -, rfl⟩
    exact ⟨hcount, hcapacity, rfl⟩
  · rintro ⟨hcount, hcapacity, rfl⟩
    exact ⟨hcount, hcapacity, encodedLength_le_maxSize hcount, rfl⟩

/-- A message that is too large for the buffer is refused with its size. -/
theorem encode_of_lt {message : CallMessage} (hcount : message.input.length ≤ maxCountedLength)
    {capacity : Nat} (hcapacity : capacity < message.encodedLength) :
    message.encode capacity = .error (.bufferOverflow message.encodedLength capacity) :=
  Writer.build_fields_of_lt (encodedLength_le_maxSize hcount) hcapacity _

/-- A message is read back from the wire. -/
theorem decode_encoding {message : CallMessage}
    (hcount : message.input.length ≤ maxCountedLength) :
    decode message.encoding = .ok message := by
  rw [decode, Reader.run_eq, encoding_eq, read]
  -- The fields are read in the order in which they were written.
  rw [Reader.bind_of_ok (CallKind.read_append _ _ _),
    Reader.bind_of_ok (Reader.u32_append _ _ _), Reader.bind_of_ok (Reader.u32_append _ _ _),
    Reader.bind_of_ok (Reader.u64_append _ _ _),
    Reader.bind_of_ok (Reader.address_append _ _ _),
    Reader.bind_of_ok (Reader.address_append _ _ _),
    Reader.bind_of_ok (Reader.counted_append hcount _ _),
    Reader.bind_of_ok (Reader.word_append _ _ _), Reader.bind_of_ok (Reader.word_append _ _ _),
    Reader.bind_of_ok (Reader.finish_nil _ _)]
  rfl

end CallMessage

/-! ## Log records -/

namespace LogRecord

/-- A record on the wire. -/
def encoding (record : LogRecord) : Bytes :=
  Field.encodings record.fields

theorem encoding_eq (record : LogRecord) :
    record.encoding =
      Bytes.ofNatLE 4 record.data.length ++ (record.data ++
        (Bytes.ofNatLE 4 (UInt32.ofNat record.topics.length).toNat ++
          record.topics.flatMap FixedBytes.bytes)) := by
  simp only [encoding, fields, Field.encodings_cons, Field.encoding, List.append_assoc]
  simp only [Field.encodings, List.flatMap_map, Field.encoding]

/-- Topics take thirty-two bytes each. -/
theorem length_topics (topics : List Word) :
    (topics.flatMap FixedBytes.bytes).length = topicLength * topics.length := by
  induction topics with
  | nil => rfl
  | cons topic topics ih =>
    rw [List.flatMap_cons, List.length_append, ih, topic.length_bytes, List.length_cons,
      Nat.mul_succ, Nat.add_comm]
    rfl

theorem length_encoding (record : LogRecord) :
    record.encoding.length = record.encodedLength := by
  simp only [encoding_eq, List.length_append, Bytes.length_ofNatLE, length_topics, encodedLength,
    fixedLength]
  omega

/-- Only the length of the data might be too large to be counted as a field. -/
theorem countable_fields_iff (record : LogRecord) :
    (∀ field ∈ record.fields, field.Countable) ↔ record.data.length ≤ maxCountedLength := by
  simp [fields, Field.Countable]

theorem encodedLength_le_maxSize {record : LogRecord}
    (hdata : record.data.length ≤ maxCountedLength)
    (htopics : record.topics.length ≤ maxCountedLength) : record.encodedLength ≤ maxSize := by
  simp only [encodedLength, fixedLength, topicLength, maxCountedLength, maxSize]
    at hdata htopics ⊢
  omega

/-- A record is written exactly when its data and its topics can be counted and it fits. -/
theorem encode_eq_ok_iff (record : LogRecord) (capacity : Nat) (bytes : Bytes) :
    record.encode capacity = .ok bytes ↔
      record.data.length ≤ maxCountedLength ∧ record.topics.length ≤ maxCountedLength ∧
        record.encodedLength ≤ capacity ∧ bytes = record.encoding := by
  -- The number of topics is written as a plain number, so it is checked before any field.
  rw [encode, Writer.build_guarded_eq_ok_iff,
    Writer.build_fields_eq_ok_iff record.length_encoding, countable_fields_iff]
  constructor
  · rintro ⟨htopics, hdata, hcapacity, -, rfl⟩
    exact ⟨hdata, htopics, hcapacity, rfl⟩
  · rintro ⟨hdata, htopics, hcapacity, rfl⟩
    exact ⟨htopics, hdata, hcapacity, encodedLength_le_maxSize hdata htopics, rfl⟩

/-- Topics are read back, whatever follows them. -/
theorem readTopics_append (topics : List Word) (position : Nat) (rest : Bytes) :
    ∃ position', readTopics topics.length
        (.facing position (topics.flatMap FixedBytes.bytes ++ rest)) =
      .ok topics (.facing position' rest) := by
  induction topics generalizing position with
  | nil => exact ⟨position, rfl⟩
  | cons topic topics ih =>
    -- Each topic moves the cursor by its 32 bytes.
    obtain ⟨position', htopics⟩ := ih (position + 32)
    refine ⟨position', ?_⟩
    rw [List.flatMap_cons, List.append_assoc, List.length_cons, readTopics,
      Reader.bind_of_ok (Reader.word_append topic _ _), Reader.bind_of_ok htopics]
    rfl

/-- A record is read back from the wire. -/
theorem decode_encoding {record : LogRecord} (hdata : record.data.length ≤ maxCountedLength)
    (htopics : record.topics.length ≤ maxCountedLength) :
    decode record.encoding = .ok record := by
  have hlt : record.topics.length < UInt32.size := Nat.lt_of_le_of_lt htopics (by decide)
  have hcount : (UInt32.ofNat record.topics.length).toNat = record.topics.length :=
    UInt32.toNat_ofNat_of_lt' hlt
  -- The bytes left when the number of topics is known are those of the topics.
  have hroom (position : Nat) : ¬(Reader.facing position
      (record.topics.flatMap FixedBytes.bytes)).remaining / topicLength < record.topics.length := by
    rw [Reader.remaining_facing, length_topics, Nat.mul_div_cancel_left _ (by decide)]
    exact Nat.lt_irrefl _
  obtain ⟨position', hread⟩ :=
    readTopics_append record.topics (0 + 4 + record.data.length + 4) []
  rw [List.append_nil] at hread
  rw [decode, Reader.run_eq, encoding_eq, read]
  rw [Reader.bind_of_ok (Reader.counted_append hdata _ _),
    Reader.bind_of_ok (Reader.u32_append _ _ _), Reader.bind_of_ok (Reader.get_eq _)]
  simp only [hcount]
  rw [if_neg (hroom _), Reader.bind_of_ok hread, Reader.bind_of_ok (Reader.finish_nil _ _)]
  rfl

end LogRecord

/-! ## Program records -/

namespace Program

/-- A record on the wire. -/
def encoding (program : Program) : Bytes :=
  Field.encodings program.fields

theorem encoding_eq (program : Program) :
    program.encoding =
      [program.kind.byte] ++ (Bytes.ofNatLE 4 program.flags.bits.toNat ++
        (Bytes.ofNatLE 4 program.depth.toNat ++ (program.sender.bytes ++
          (program.destination.bytes ++ (Bytes.ofNatLE 4 program.code.length ++ (program.code ++
            (Bytes.ofNatLE 4 program.input.length ++ (program.input ++ [])))))))) := by
  simp only [encoding, fields, Field.encodings_cons, Field.encodings_nil, Field.encoding,
    List.append_assoc]

/-- The encoding has the length that is asked for before it is written. -/
theorem length_encoding (program : Program) :
    program.encoding.length = program.encodedLength := by
  simp only [encoding_eq, List.length_append, List.length_cons, List.length_nil,
    Bytes.length_ofNatLE, FixedBytes.length_bytes, encodedLength, fixedLength]
  omega

/-- Only the lengths of the code and the input might be too large to be counted. -/
theorem countable_fields_iff (program : Program) :
    (∀ field ∈ program.fields, field.Countable) ↔
      program.code.length ≤ maxCountedLength ∧ program.input.length ≤ maxCountedLength := by
  simp [fields, Field.Countable]

theorem encodedLength_le_maxSize {program : Program}
    (hcode : program.code.length ≤ maxCountedLength)
    (hinput : program.input.length ≤ maxCountedLength) : program.encodedLength ≤ maxSize := by
  simp only [encodedLength, fixedLength, maxCountedLength, maxSize] at hcode hinput ⊢
  omega

/-- A record is written exactly when its code and its input can be counted and it fits. -/
theorem encode_eq_ok_iff (program : Program) (capacity : Nat) (bytes : Bytes) :
    program.encode capacity = .ok bytes ↔
      (program.code.length ≤ maxCountedLength ∧ program.input.length ≤ maxCountedLength) ∧
        program.encodedLength ≤ capacity ∧ bytes = program.encoding := by
  rw [encode, Writer.build_fields_eq_ok_iff program.length_encoding, countable_fields_iff]
  constructor
  · rintro ⟨hcount, hcapacity, -, rfl⟩
    exact ⟨hcount, hcapacity, rfl⟩
  · rintro ⟨⟨hcode, hinput⟩, hcapacity, rfl⟩
    exact ⟨⟨hcode, hinput⟩, hcapacity, encodedLength_le_maxSize hcode hinput, rfl⟩

/-- A record is read back from the wire. -/
theorem decode_encoding {program : Program} (hcode : program.code.length ≤ maxCountedLength)
    (hinput : program.input.length ≤ maxCountedLength) :
    decode program.encoding = .ok program := by
  rw [decode, Reader.run_eq, encoding_eq, read]
  -- The length of the code says where that of the input stands.
  rw [Reader.bind_of_ok (CallKind.read_append _ _ _),
    Reader.bind_of_ok (Reader.u32_append _ _ _), Reader.bind_of_ok (Reader.u32_append _ _ _),
    Reader.bind_of_ok (Reader.address_append _ _ _),
    Reader.bind_of_ok (Reader.address_append _ _ _),
    Reader.bind_of_ok (Reader.counted_append hcode _ _),
    Reader.bind_of_ok (Reader.counted_append hinput _ _),
    Reader.bind_of_ok (Reader.finish_nil _ _)]
  rfl

end Program

/-! ## Call results -/

namespace CallResult

/-- An answer on the wire. -/
def encoding (output : Bytes) (created : Address) (gas : Option UInt64) : Bytes :=
  Field.encodings (fields output created gas)

/-- The gas of an answer on the wire. -/
def trailer (gas : Option UInt64) : Bytes :=
  gas.elim [] fun gas => Bytes.ofNatLE 8 gas.toNat

theorem encoding_eq (output : Bytes) (created : Address) (gas : Option UInt64) :
    encoding output created gas =
      Bytes.ofNatLE 4 (Int32.ofNat output.length).toUInt32.toNat ++ (output ++
        (created.bytes ++ trailer gas)) := by
  cases gas <;> simp [encoding, fields, Field.encodings, Field.encoding, trailer]

theorem length_encoding (output : Bytes) (created : Address) (gas : Option UInt64) :
    (encoding output created gas).length = encodedLength output gas := by
  have htrailer : (trailer gas).length = if gas.isSome then 8 else 0 := by
    cases gas <;> simp [trailer]
  simp only [encoding_eq, List.length_append, Bytes.length_ofNatLE, created.length_bytes,
    encodedLength, fixedLength, htrailer]
  omega

/-- No field of an answer has a count that is too small for it. -/
theorem countable_fields (output : Bytes) (created : Address) (gas : Option UInt64) :
    ∀ field ∈ fields output created gas, field.Countable := by
  cases gas <;> simp [fields, Field.Countable]

theorem encodedLength_le_maxSize {output : Bytes} (houtput : output.length ≤ maxOutputLength)
    (gas : Option UInt64) : encodedLength output gas ≤ maxSize := by
  simp only [encodedLength, fixedLength, maxOutputLength, maxSize] at houtput ⊢
  split <;> omega

/-- An answer is written exactly when the length of its output can be said and it fits. -/
theorem encode_eq_ok_iff (output : Bytes) (created : Address) (gas : Option UInt64)
    (capacity : Nat) (bytes : Bytes) :
    encode output created gas capacity = .ok bytes ↔
      output.length ≤ maxOutputLength ∧ encodedLength output gas ≤ capacity ∧
        bytes = encoding output created gas := by
  -- The length of the output is written as a signed number, so it is checked before any field.
  rw [encode, Writer.build_guarded_eq_ok_iff,
    Writer.build_fields_eq_ok_iff (length_encoding output created gas)]
  constructor
  · rintro ⟨houtput, -, hcapacity, -, rfl⟩
    exact ⟨houtput, hcapacity, rfl⟩
  · rintro ⟨houtput, hcapacity, rfl⟩
    exact ⟨houtput, countable_fields output created gas, hcapacity,
      encodedLength_le_maxSize houtput gas, rfl⟩

end CallResult

end CallGate
