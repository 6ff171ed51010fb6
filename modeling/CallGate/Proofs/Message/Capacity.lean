import CallGate.Proofs.Message.Layout
import CallGate.Proofs.Wire.Sequence

/-!
# Messages under a capacity

A message asks for its whole room before its first field is written. The size that it asks for is
the sum of the sizes of its fields, so it fails there or not at all: it is written exactly when it
fits, and its bytes are the same under every capacity that it fits.

* `ExactFit`: writing some fields fails on a capacity below their size and on nothing else.
* `exactFit_of_build`: fields whose lengths can be counted, behind a request for their size.
* `exactFit_messages`: the four kinds of message with their sizes.
-/

namespace CallGate

/-- Writing fields of a size in all, which fails on the capacity alone. -/
structure ExactFit (encode : Nat → Except WireError Bytes) (fields : List Field) (size : Nat) :
    Prop where
  /-- The size is asked for first, and then the fields are written. -/
  eq_build : ∀ capacity,
    encode capacity = Writer.build capacity do
      Writer.ensure size
      Field.putAll fields
  /-- Something is written exactly when the size is within the capacity. -/
  exists_ok_iff : ∀ capacity, (∃ bytes, encode capacity = .ok bytes) ↔ size ≤ capacity
  /-- What is written has the size. -/
  length_eq : ∀ capacity bytes, encode capacity = .ok bytes → bytes.length = size
  /-- Under a capacity below the size, the error tells both. -/
  of_lt : ∀ capacity, capacity < size → encode capacity = .error (.bufferOverflow size capacity)
  /-- What is written does not depend on the capacity. -/
  bytes_eq : ∀ capacity capacity' bytes bytes', encode capacity = .ok bytes →
    encode capacity' = .ok bytes' → bytes = bytes'
  /-- Once the size was granted, each field is written behind those before it. -/
  put_ok : ∀ capacity writer, Writer.ensure size (.ofCapacity capacity) = .ok () writer →
    ∀ before field after, fields = before ++ field :: after → ∃ middle later,
      Field.putAll before writer = .ok () middle ∧ field.put middle = .ok () later

/-- A size is granted to an empty writer exactly when it is within the capacity, if it can be
counted. -/
theorem Writer.ensure_ofCapacity_eq_ok_iff {size : Nat} (hmax : size ≤ maxSize) (capacity : Nat)
    (writer : Writer) :
    ensure size (ofCapacity capacity) = .ok () writer ↔
      size ≤ capacity ∧ writer = ofCapacity capacity := by
  by_cases hroom : (ofCapacity capacity).HasRoom size
  · have hcapacity := ((hasRoom_ofCapacity _ _).1 hroom).1
    rw [ensure_of_hasRoom hroom]
    simp [hcapacity, eq_comm]
  · rw [ensure_of_not_hasRoom hroom]
    rw [hasRoom_ofCapacity] at hroom
    refine iff_of_false nofun ?_
    rintro ⟨hcapacity, -⟩
    exact hroom ⟨hcapacity, hmax⟩

/-- Fields whose lengths can be counted, written behind a request for their size. -/
theorem exactFit_of_build {encode : Nat → Except WireError Bytes} {fields : List Field}
    {size : Nat} (hsize : (Field.encodings fields).length = size) (hmax : size ≤ maxSize)
    (hcount : ∀ field ∈ fields, field.Countable)
    (hbuild : ∀ capacity, encode capacity = Writer.build capacity do
      Writer.ensure size
      Field.putAll fields) :
    ExactFit encode fields size := by
  -- All but the size and the capacity is decided: the lengths can be counted.
  have hiff (capacity : Nat) (bytes : Bytes) : encode capacity = .ok bytes ↔
      size ≤ capacity ∧ bytes = Field.encodings fields := by
    rw [hbuild, Writer.build_fields_eq_ok_iff hsize, and_iff_right hcount]
    simp [hmax]
  refine {
    eq_build := hbuild
    exists_ok_iff := by simp [hiff]
    length_eq := ?_
    of_lt := ?_
    bytes_eq := ?_
    put_ok := ?_ }
  · intro capacity bytes hbytes
    obtain ⟨-, rfl⟩ := (hiff _ _).1 hbytes
    exact hsize
  · intro capacity hcapacity
    rw [hbuild]
    exact Writer.build_fields_of_lt hmax hcapacity fields
  · intro capacity capacity' bytes bytes' hbytes hbytes'
    -- Both are the encodings of the fields.
    rw [((hiff _ _).1 hbytes).2, ((hiff _ _).1 hbytes').2]
  · intro capacity writer hensure before field after hfields
    obtain ⟨hcapacity, rfl⟩ := (Writer.ensure_ofCapacity_eq_ok_iff hmax _ _).1 hensure
    -- The room that was granted is that of all the fields.
    have hroom : (Writer.ofCapacity capacity).HasRoom (Field.encodings fields).length := by
      rw [hsize, Writer.hasRoom_ofCapacity]
      exact ⟨hcapacity, hmax⟩
    subst hfields
    obtain ⟨hbefore, hfield⟩ := Field.put_after hcount hroom
    exact ⟨_, _, hbefore, hfield⟩

/-! ## The kinds of message -/

/-- A call message is written exactly where it fits. -/
theorem CallMessage.exactFit {message : CallMessage}
    (hinput : message.input.length ≤ maxCountedLength) :
    ExactFit message.encode message.fields message.encodedLength :=
  exactFit_of_build message.length_encoding (encodedLength_le_maxSize hinput)
    (message.countable_fields_iff.2 hinput) fun _ => rfl

/-- A program is written exactly where it fits. -/
theorem Program.exactFit {program : Program} (hcode : program.code.length ≤ maxCountedLength)
    (hinput : program.input.length ≤ maxCountedLength) :
    ExactFit program.encode program.fields program.encodedLength :=
  exactFit_of_build program.length_encoding (encodedLength_le_maxSize hcode hinput)
    (program.countable_fields_iff.2 ⟨hcode, hinput⟩) fun _ => rfl

/-- A log record is written exactly where it fits. -/
theorem LogRecord.exactFit {record : LogRecord} (hdata : record.data.length ≤ maxCountedLength)
    (htopics : record.topics.length ≤ maxCountedLength) :
    ExactFit record.encode record.fields record.encodedLength := by
  apply exactFit_of_build record.length_encoding (encodedLength_le_maxSize hdata htopics)
    (record.countable_fields_iff.2 hdata)
  -- The number of topics passes the check in front of the request.
  intro capacity
  rw [encode, Writer.build_guarded_of_le htopics]

/-- An answer is written exactly where it fits. -/
theorem CallResult.exactFit {output : Bytes} (houtput : output.length ≤ maxOutputLength)
    (created : Address) (gas : Option UInt64) :
    ExactFit (encode output created gas) (fields output created gas)
      (encodedLength output gas) := by
  apply exactFit_of_build (length_encoding output created gas)
    (encodedLength_le_maxSize houtput gas) (countable_fields output created gas)
  intro capacity
  rw [encode, Writer.build_guarded_of_le houtput]

/-- Every message whose lengths and counts are below `2 ^ 32`, and every answer with an output below
`2 ^ 31`, is written exactly when its size is within the capacity, and is refused with its size
otherwise. Nothing fails behind the request for the size, and the bytes are the same under every
capacity. An answer with a longer output is refused under every capacity, with the length of the
output and the largest length that there can be. -/
theorem exactFit_messages :
    (∀ message : CallMessage, message.input.length < 2 ^ 32 →
      message.encodedLength = 125 + message.input.length ∧
      ExactFit message.encode message.fields message.encodedLength) ∧
    (∀ program : Program, program.code.length < 2 ^ 32 → program.input.length < 2 ^ 32 →
      program.encodedLength = 57 + program.code.length + program.input.length ∧
      ExactFit program.encode program.fields program.encodedLength) ∧
    (∀ record : LogRecord, record.data.length < 2 ^ 32 → record.topics.length < 2 ^ 32 →
      record.encodedLength = 8 + record.data.length + 32 * record.topics.length ∧
      ExactFit record.encode record.fields record.encodedLength) ∧
    (∀ output created gas, output.length < 2 ^ 31 →
      ExactFit (CallResult.encode output created gas) (CallResult.fields output created gas)
        (24 + output.length + if gas.isSome then 8 else 0)) ∧
    (∀ output created gas capacity, 2 ^ 31 ≤ output.length →
      CallResult.encode output created gas capacity =
        .error (.bufferOverflow output.length (2 ^ 31 - 1))) := by
  refine ⟨?_, ?_, ?_, ?_, ?_⟩
  · intro message hinput
    exact ⟨rfl, CallMessage.exactFit ((le_maxCountedLength_iff _).2 hinput)⟩
  · intro program hcode hinput
    exact ⟨rfl, Program.exactFit ((le_maxCountedLength_iff _).2 hcode)
      ((le_maxCountedLength_iff _).2 hinput)⟩
  · intro record hdata htopics
    exact ⟨rfl, LogRecord.exactFit ((le_maxCountedLength_iff _).2 hdata)
      ((le_maxCountedLength_iff _).2 htopics)⟩
  · intro output created gas houtput
    exact CallResult.exactFit (Nat.le_of_lt_succ houtput) created gas
  · intro output created gas capacity houtput
    exact Writer.build_guarded_of_lt houtput capacity

/-- One message of each kind in a buffer that it fills and in one that lacks a byte, and an answer
whose output is one byte too long. -/
theorem exactFit_messages_tight :
    let message : CallMessage := {
      kind := .call, flags := .static, depth := 0, gas := 21000, destination := .zero
      sender := .zero, input := [1, 2, 3], value := .ofNat 7, salt := .zero }
    let program := Program.creation .zero [0x60, 0x01]
    let record : LogRecord := ⟨[1, 2, 3], [.ofNat 5]⟩
    let output : Bytes := List.replicate (2 ^ 31) 0
    ((∃ bytes, message.encode 128 = .ok bytes) ∧
      message.encode 127 = .error (.bufferOverflow 128 127)) ∧
    ((∃ bytes, program.encode 59 = .ok bytes) ∧
      program.encode 58 = .error (.bufferOverflow 59 58)) ∧
    ((∃ bytes, record.encode 43 = .ok bytes) ∧
      record.encode 42 = .error (.bufferOverflow 43 42)) ∧
    ((∃ bytes, CallResult.encode [1] .zero (some 7) 33 = .ok bytes) ∧
      CallResult.encode [1] .zero (some 7) 32 = .error (.bufferOverflow 33 32)) ∧
    CallResult.encode output .zero none 0 = .error (.bufferOverflow (2 ^ 31) (2 ^ 31 - 1)) := by
  intro message program record output
  obtain ⟨hcall, hprogram, hlog, hanswer, hlong⟩ := exactFit_messages
  have hmessageFit := (hcall message (by decide)).2
  have hprogramFit := (hprogram program (by decide) (by decide)).2
  have hrecordFit := (hlog record (by decide) (by decide)).2
  have hanswerFit := hanswer [1] .zero (some 7) (by decide)
  have hlength : output.length = 2 ^ 31 := List.length_replicate
  have houtput := hlong output .zero none 0 (Nat.le_of_eq hlength.symm)
  rw [hlength] at houtput
  refine ⟨⟨?_, ?_⟩, ⟨?_, ?_⟩, ⟨?_, ?_⟩, ⟨?_, ?_⟩, houtput⟩
  · exact (hmessageFit.exists_ok_iff 128).2 (by decide)
  · exact hmessageFit.of_lt 127 (by decide)
  · exact (hprogramFit.exists_ok_iff 59).2 (by decide)
  · exact hprogramFit.of_lt 58 (by decide)
  · exact (hrecordFit.exists_ok_iff 43).2 (by decide)
  · exact hrecordFit.of_lt 42 (by decide)
  · exact (hanswerFit.exists_ok_iff 33).2 (by decide)
  · exact hanswerFit.of_lt 32 (by decide)

end CallGate
