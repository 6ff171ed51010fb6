import CallGate.Proofs.FixedBytes
import CallGate.Proofs.Message.Layout
import CallGate.Proofs.Wire.Taken

/-!
# One form on the wire

Call messages, log records and program records have one form on the wire each. What is written is
that form, and nothing else is read. So no two records share a form, wherever the bytes of one
field could have been moved into the next, and no record is read from two byte strings.

* `WireForm`: writing and reading agree on one form of every record.
* `CallMessage.message_wireForm_unique`, `LogRecord.record_wireForm_unique`,
  `Program.program_wireForm_unique`: the forms of the three kinds of record, field by field.
-/

namespace CallGate

/-- Writing under a capacity and reading agree on one form of every record that can be written. -/
structure WireForm {α : Type} (encode : α → Nat → Except WireError Bytes)
    (decode : Bytes → Except WireError α) (Writable : α → Prop) (form : α → Bytes) : Prop where
  encode_eq_ok_iff : ∀ record capacity bytes, encode record capacity = .ok bytes ↔
    Writable record ∧ (form record).length ≤ capacity ∧ bytes = form record
  decode_eq_ok_iff : ∀ bytes record, decode bytes = .ok record ↔
    Writable record ∧ bytes = form record

namespace WireForm

variable {α : Type} {encode : α → Nat → Except WireError Bytes}
  {decode : Bytes → Except WireError α} {Writable : α → Prop} {form : α → Bytes}

/-- A record is written as the bytes that are read as it, if they fit. -/
theorem encode_eq_ok_iff_decode_eq_ok (h : WireForm encode decode Writable form) (record : α)
    (bytes : Bytes) (capacity : Nat) :
    encode record capacity = .ok bytes ↔
      bytes.length ≤ capacity ∧ decode bytes = .ok record := by
  rw [h.encode_eq_ok_iff, h.decode_eq_ok_iff]
  constructor
  · rintro ⟨hwritable, hcapacity, rfl⟩
    exact ⟨hcapacity, hwritable, rfl⟩
  · rintro ⟨hcapacity, hwritable, rfl⟩
    exact ⟨hwritable, hcapacity, rfl⟩

/-- Records that are written as the same bytes are the same. -/
theorem eq_of_encode_eq_ok (h : WireForm encode decode Writable form) {first second : α}
    {capacity capacity' : Nat} {bytes : Bytes} (hfirst : encode first capacity = .ok bytes)
    (hsecond : encode second capacity' = .ok bytes) : first = second := by
  -- Both are what is read from the bytes.
  have hread := ((h.encode_eq_ok_iff_decode_eq_ok _ _ _).1 hfirst).2
  rw [((h.encode_eq_ok_iff_decode_eq_ok _ _ _).1 hsecond).2] at hread
  cases hread
  rfl

/-- Byte strings that are read as the same record are the same. -/
theorem eq_of_decode_eq_ok (h : WireForm encode decode Writable form) {first second : Bytes}
    {record : α} (hfirst : decode first = .ok record) (hsecond : decode second = .ok record) :
    first = second := by
  rw [((h.decode_eq_ok_iff _ _).1 hfirst).2, ((h.decode_eq_ok_iff _ _).1 hsecond).2]

end WireForm

/-! ## Parts of the forms -/

namespace CallKind

theorem byte_of_ofByte?_eq_some {byte : UInt8} {kind : CallKind} (h : ofByte? byte = some kind) :
    kind.byte = byte := by
  unfold ofByte? at h
  split at h <;> cases h <;> rfl

/-- A kind is taken as its byte. -/
theorem takes_read : Reader.Takes CallKind.read fun kind => .byte kind.byte := by
  intro position rest kind reader h
  obtain ⟨byte, behind, -, hbyte, hkind⟩ := Reader.takes_byte.of_bind_eq_ok h
  cases hfound : ofByte? byte with
  | none =>
    simp only [hfound] at hkind
    cases hkind
  | some found =>
    simp only [hfound] at hkind
    cases hkind
    obtain rfl := byte_of_ofByte?_eq_some hfound
    exact ⟨trivial, behind, hbyte, rfl⟩

end CallKind

/-! ## Call messages -/

namespace CallMessage

/-- A byte string that reads as a message is the message's form. -/
theorem of_decode_eq_ok {bytes : Bytes} {message : CallMessage} (h : decode bytes = .ok message) :
    message.input.length ≤ maxCountedLength ∧ bytes = message.encoding := by
  obtain ⟨reader, h⟩ := Reader.of_run_eq_ok h
  rw [read] at h
  -- Field by field, what was taken is what is written.
  obtain ⟨kind, _, -, hkind, h⟩ := CallKind.takes_read.of_bind_eq_ok h
  obtain ⟨flags, _, -, hflags, h⟩ := Reader.takes_u32.of_bind_eq_ok h
  obtain ⟨depth, _, -, hdepth, h⟩ := Reader.takes_u32.of_bind_eq_ok h
  obtain ⟨gas, _, -, hgas, h⟩ := Reader.takes_u64.of_bind_eq_ok h
  obtain ⟨destination, _, -, hdestination, h⟩ := Reader.takes_address.of_bind_eq_ok h
  obtain ⟨sender, _, -, hsender, h⟩ := Reader.takes_address.of_bind_eq_ok h
  obtain ⟨input, _, hcount, hinput, h⟩ := Reader.takes_counted.of_bind_eq_ok h
  obtain ⟨value, _, -, hvalue, h⟩ := Reader.takes_word.of_bind_eq_ok h
  obtain ⟨salt, _, -, hsalt, h⟩ := Reader.takes_word.of_bind_eq_ok h
  obtain ⟨hend, h⟩ := Reader.of_finish_bind_eq_ok h
  cases h
  refine ⟨hcount, ?_⟩
  rw [hkind, hflags, hdepth, hgas, hdestination, hsender, hinput, hvalue, hsalt, hend]
  rfl

/-- Call messages whose input can be counted have a wire form. -/
theorem wireForm : WireForm encode decode (fun message => message.input.length ≤ maxCountedLength)
    encoding where
  encode_eq_ok_iff message capacity bytes := by
    rw [encode_eq_ok_iff, length_encoding]
  decode_eq_ok_iff bytes message := by
    refine ⟨of_decode_eq_ok, ?_⟩
    rintro ⟨hinput, rfl⟩
    exact decode_encoding hinput

/-- The one form of a call message.

* A message is written as the bytes that are read as it, under every capacity that they fit.
* The bytes that are read as a message are its fields in the order of the wire, the numbers with
  their least significant byte first, the input after its length, and the amount as a number with
  its most significant byte first. The length of the input fits its 32 bits.
* No other message is written as these bytes, and no other bytes are read as this message. -/
theorem message_wireForm_unique (message : CallMessage) (bytes : Bytes) :
    (∀ capacity, message.encode capacity = .ok bytes ↔
      bytes.length ≤ capacity ∧ decode bytes = .ok message) ∧
    (decode bytes = .ok message ↔
      message.input.length < 2 ^ 32 ∧
        bytes = [message.kind.byte] ++ Bytes.ofNatLE 4 message.flags.bits.toNat ++
          Bytes.ofNatLE 4 message.depth.toNat ++ Bytes.ofNatLE 8 message.gas.toNat ++
          message.destination.bytes ++ message.sender.bytes ++
          Bytes.ofNatLE 4 message.input.length ++ message.input ++
          Bytes.ofNatBE 32 message.value.toNat ++ message.salt.bytes) ∧
    (∀ other capacity capacity', message.encode capacity = .ok bytes →
      other.encode capacity' = .ok bytes → other = message) ∧
    (∀ bytes', decode bytes = .ok message → decode bytes' = .ok message → bytes' = bytes) := by
  refine ⟨wireForm.encode_eq_ok_iff_decode_eq_ok message bytes, ?_, ?_, ?_⟩
  · rw [wireForm.decode_eq_ok_iff, le_maxCountedLength_iff, encoding_eq, FixedBytes.ofNatBE_toNat]
    simp only [List.append_assoc, List.append_nil]
  · intro other capacity capacity' hmessage hother
    exact wireForm.eq_of_encode_eq_ok hother hmessage
  · intro bytes' hbytes hbytes'
    exact wireForm.eq_of_decode_eq_ok hbytes' hbytes

/-- A static call with three bytes of input and an amount of seven, in a buffer that it fills. -/
theorem message_wireForm_unique_full :
    let message : CallMessage := {
      kind := .create2, flags := .static, depth := 0, gas := 21000, destination := .zero
      sender := .zero, input := [1, 2, 3], value := .ofNat 7, salt := .zero }
    let bytes : Bytes := [4, 1, 0, 0, 0, 0, 0, 0, 0, 8, 82, 0, 0, 0, 0, 0, 0] ++
      List.replicate 40 0 ++ [3, 0, 0, 0, 1, 2, 3] ++ List.replicate 31 0 ++ [7] ++
      List.replicate 32 0
    message.encode 128 = .ok bytes ∧ decode bytes = .ok message ∧
      (∀ other capacity, other.encode capacity = .ok bytes → other = message) ∧
      (∀ bytes', decode bytes' = .ok message → bytes' = bytes) := by
  intro message bytes
  have hencode : message.encode 128 = .ok bytes := by decide +kernel
  obtain ⟨hwritten, -, hother, hbytes⟩ := message_wireForm_unique message bytes
  have hdecode : decode bytes = .ok message := ((hwritten 128).1 hencode).2
  exact ⟨hencode, hdecode, fun other capacity => hother other 128 capacity hencode,
    fun bytes' => hbytes bytes' hdecode⟩

end CallMessage

/-! ## Log records -/

namespace LogRecord

/-- Topics that were read have been counted, and each has been taken in turn. -/
theorem of_readTopics_eq_ok {count position : Nat} {rest : Bytes} {topics : List Word}
    {reader : Reader} (h : readTopics count (.facing position rest) = .ok topics reader) :
    topics.length = count ∧ ∃ position' behind,
      rest = topics.flatMap FixedBytes.bytes ++ behind ∧ reader = .facing position' behind := by
  induction count generalizing position rest topics with
  | zero =>
    cases h
    exact ⟨rfl, position, rest, rfl, rfl⟩
  | succ count ih =>
    rw [readTopics] at h
    obtain ⟨topic, _, -, htopic, h⟩ := Reader.takes_word.of_bind_eq_ok h
    obtain ⟨others, middle, hothers, h⟩ := Reader.of_bind_eq_ok h
    cases h
    obtain ⟨hcount, position', behind, hrest, hreader⟩ := ih hothers
    refine ⟨by rw [List.length_cons, hcount], position', behind, ?_, hreader⟩
    rw [htopic, hrest, List.flatMap_cons, List.append_assoc]
    rfl

/-- A byte string that reads as a record is the record's form. -/
theorem of_decode_eq_ok {bytes : Bytes} {record : LogRecord} (h : decode bytes = .ok record) :
    (record.data.length ≤ maxCountedLength ∧ record.topics.length ≤ maxCountedLength) ∧
      bytes = record.encoding := by
  obtain ⟨reader, h⟩ := Reader.of_run_eq_ok h
  rw [read] at h
  obtain ⟨data, _, hdata, hbytes, h⟩ := Reader.takes_counted.of_bind_eq_ok h
  obtain ⟨count, _, -, hcount, h⟩ := Reader.takes_u32.of_bind_eq_ok h
  rw [Reader.bind_of_ok (Reader.get_eq _)] at h
  -- A count beyond the bytes left would have been refused.
  split at h
  · cases h
  obtain ⟨topics, _, htopics, h⟩ := Reader.of_bind_eq_ok h
  obtain ⟨hlength, _, _, hrest, rfl⟩ := of_readTopics_eq_ok htopics
  obtain ⟨hend, h⟩ := Reader.of_finish_bind_eq_ok h
  cases h
  refine ⟨⟨hdata, ?_⟩, ?_⟩
  · rw [le_maxCountedLength_iff, hlength]
    exact count.toNat_lt
  · -- The number of topics that is written is the count that was read.
    rw [encoding_eq, hlength, UInt32.ofNat_toNat, hbytes, hcount, hrest, hend]
    simp only [Field.encoding, List.append_assoc, List.append_nil]

/-- Log records whose data and topics can be counted have a wire form. -/
theorem wireForm : WireForm encode decode
    (fun record => record.data.length ≤ maxCountedLength ∧ record.topics.length ≤ maxCountedLength)
    encoding where
  encode_eq_ok_iff record capacity bytes := by
    rw [encode_eq_ok_iff, length_encoding, and_assoc]
  decode_eq_ok_iff bytes record := by
    refine ⟨of_decode_eq_ok, ?_⟩
    rintro ⟨⟨hdata, htopics⟩, rfl⟩
    exact decode_encoding hdata htopics

/-- The one form of a log record.

* A record is written as the bytes that are read as it, under every capacity that they fit.
* The bytes that are read as a record are its data after their length, the number of its topics,
  and the topics in order. The length and the number fit their 32 bits.
* No other data and topics are written as these bytes, and no other bytes are read as this
  record. -/
theorem record_wireForm_unique (record : LogRecord) (bytes : Bytes) :
    (∀ capacity, record.encode capacity = .ok bytes ↔
      bytes.length ≤ capacity ∧ decode bytes = .ok record) ∧
    (decode bytes = .ok record ↔
      record.data.length < 2 ^ 32 ∧ record.topics.length < 2 ^ 32 ∧
        bytes = Bytes.ofNatLE 4 record.data.length ++ record.data ++
          Bytes.ofNatLE 4 record.topics.length ++ record.topics.flatMap FixedBytes.bytes) ∧
    (∀ data topics capacity capacity', record.encode capacity = .ok bytes →
      encode ⟨data, topics⟩ capacity' = .ok bytes →
      data = record.data ∧ topics = record.topics) ∧
    (∀ bytes', decode bytes = .ok record → decode bytes' = .ok record → bytes' = bytes) := by
  refine ⟨wireForm.encode_eq_ok_iff_decode_eq_ok record bytes, ?_, ?_, ?_⟩
  · rw [wireForm.decode_eq_ok_iff, le_maxCountedLength_iff, le_maxCountedLength_iff, and_assoc]
    refine and_congr_right fun _ => and_congr_right fun htopics => ?_
    have hcount : (UInt32.ofNat record.topics.length).toNat = record.topics.length :=
      UInt32.toNat_ofNat_of_lt' htopics
    rw [encoding_eq, hcount]
    simp only [List.append_assoc]
  · intro data topics capacity capacity' hrecord hother
    obtain rfl := wireForm.eq_of_encode_eq_ok hrecord hother
    exact ⟨rfl, rfl⟩
  · intro bytes' hbytes hbytes'
    exact wireForm.eq_of_decode_eq_ok hbytes' hbytes

/-- Three bytes of data and one topic, in a buffer that they fill. -/
theorem record_wireForm_unique_full :
    let record : LogRecord := ⟨[1, 2, 3], [.ofNat 5]⟩
    let bytes : Bytes := [3, 0, 0, 0, 1, 2, 3, 1, 0, 0, 0] ++ List.replicate 31 0 ++ [5]
    record.encode 43 = .ok bytes ∧ decode bytes = .ok record ∧
      (∀ data topics capacity, encode ⟨data, topics⟩ capacity = .ok bytes →
        data = [1, 2, 3] ∧ topics = [.ofNat 5]) ∧
      (∀ bytes', decode bytes' = .ok record → bytes' = bytes) := by
  intro record bytes
  have hencode : record.encode 43 = .ok bytes := by decide +kernel
  obtain ⟨hwritten, -, hother, hbytes⟩ := record_wireForm_unique record bytes
  have hdecode : decode bytes = .ok record := ((hwritten 43).1 hencode).2
  exact ⟨hencode, hdecode, fun data topics capacity => hother data topics 43 capacity hencode,
    fun bytes' => hbytes bytes' hdecode⟩

end LogRecord

/-! ## Program records -/

namespace Program

/-- A byte string that reads as a record is the record's form. -/
theorem of_decode_eq_ok {bytes : Bytes} {program : Program} (h : decode bytes = .ok program) :
    (program.code.length ≤ maxCountedLength ∧ program.input.length ≤ maxCountedLength) ∧
      bytes = program.encoding := by
  obtain ⟨reader, h⟩ := Reader.of_run_eq_ok h
  rw [read] at h
  obtain ⟨kind, _, -, hkind, h⟩ := CallKind.takes_read.of_bind_eq_ok h
  obtain ⟨flags, _, -, hflags, h⟩ := Reader.takes_u32.of_bind_eq_ok h
  obtain ⟨depth, _, -, hdepth, h⟩ := Reader.takes_u32.of_bind_eq_ok h
  obtain ⟨sender, _, -, hsender, h⟩ := Reader.takes_address.of_bind_eq_ok h
  obtain ⟨destination, _, -, hdestination, h⟩ := Reader.takes_address.of_bind_eq_ok h
  obtain ⟨code, _, hcodeCount, hcode, h⟩ := Reader.takes_counted.of_bind_eq_ok h
  obtain ⟨input, _, hinputCount, hinput, h⟩ := Reader.takes_counted.of_bind_eq_ok h
  obtain ⟨hend, h⟩ := Reader.of_finish_bind_eq_ok h
  cases h
  refine ⟨⟨hcodeCount, hinputCount⟩, ?_⟩
  rw [hkind, hflags, hdepth, hsender, hdestination, hcode, hinput, hend]
  rfl

/-- Programs whose code and input can be counted have a wire form. -/
theorem wireForm : WireForm encode decode
    (fun program => program.code.length ≤ maxCountedLength ∧
      program.input.length ≤ maxCountedLength) encoding where
  encode_eq_ok_iff program capacity bytes := by
    rw [encode_eq_ok_iff, length_encoding]
  decode_eq_ok_iff bytes program := by
    refine ⟨of_decode_eq_ok, ?_⟩
    rintro ⟨⟨hcode, hinput⟩, rfl⟩
    exact decode_encoding hcode hinput

/-- The one form of a program record.

* A record is written as the bytes that are read as it, under every capacity that they fit.
* The bytes that are read as a record are its fields in the order of the wire, the sender before
  the destination, and the code and the input each after its length. Both lengths fit their 32
  bits.
* No other record is written as these bytes, so none of them can be moved between the code and the
  input, and no other bytes are read as this record. -/
theorem program_wireForm_unique (program : Program) (bytes : Bytes) :
    (∀ capacity, program.encode capacity = .ok bytes ↔
      bytes.length ≤ capacity ∧ decode bytes = .ok program) ∧
    (decode bytes = .ok program ↔
      program.code.length < 2 ^ 32 ∧ program.input.length < 2 ^ 32 ∧
        bytes = [program.kind.byte] ++ Bytes.ofNatLE 4 program.flags.bits.toNat ++
          Bytes.ofNatLE 4 program.depth.toNat ++ program.sender.bytes ++
          program.destination.bytes ++ Bytes.ofNatLE 4 program.code.length ++ program.code ++
          Bytes.ofNatLE 4 program.input.length ++ program.input) ∧
    (∀ other capacity capacity', program.encode capacity = .ok bytes →
      other.encode capacity' = .ok bytes → other = program) ∧
    (∀ bytes', decode bytes = .ok program → decode bytes' = .ok program → bytes' = bytes) := by
  refine ⟨wireForm.encode_eq_ok_iff_decode_eq_ok program bytes, ?_, ?_, ?_⟩
  · rw [wireForm.decode_eq_ok_iff, le_maxCountedLength_iff, le_maxCountedLength_iff, and_assoc,
      encoding_eq]
    simp only [List.append_assoc, List.append_nil]
  · intro other capacity capacity' hprogram hother
    exact wireForm.eq_of_encode_eq_ok hother hprogram
  · intro bytes' hbytes hbytes'
    exact wireForm.eq_of_decode_eq_ok hbytes' hbytes

/-- Two bytes of code and one of input, in a buffer that they fill. -/
theorem program_wireForm_unique_full :
    let program : Program := .invocation .zero .zero [96, 0] [7]
    let bytes : Bytes := List.replicate 49 0 ++ [2, 0, 0, 0, 96, 0] ++ [1, 0, 0, 0, 7]
    program.encode 60 = .ok bytes ∧ decode bytes = .ok program ∧
      (∀ other capacity, other.encode capacity = .ok bytes → other = program) ∧
      (∀ bytes', decode bytes' = .ok program → bytes' = bytes) := by
  intro program bytes
  have hencode : program.encode 60 = .ok bytes := by decide +kernel
  obtain ⟨hwritten, -, hother, hbytes⟩ := program_wireForm_unique program bytes
  have hdecode : decode bytes = .ok program := ((hwritten 60).1 hencode).2
  exact ⟨hencode, hdecode, fun other capacity => hother other 60 capacity hencode,
    fun bytes' => hbytes bytes' hdecode⟩

end Program

end CallGate
