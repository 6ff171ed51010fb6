import CallGate.Proofs.Message.Grammar

/-!
# What reads as a log record, and why the rest does not

A log record is its data after their length, the number of its topics, and the topics. Before the
first topic is read, their number is checked against the bytes left. So a byte string is truncated
only within the data and the two numbers. From there on it is malformed, for topics that have no
room or for bytes behind the last of them, or it is a record.

* `LogRecord.readTopics_of_le`: topics that have room are read.
* `LogRecord.decode_of_cut`, `LogRecord.decode_of_room_lt`, `LogRecord.decode_of_trailing`,
  `LogRecord.decode_of_length_eq`: the four ways in which reading a record ends.
* `LogRecord.log_grammar`: which byte string ends in which of them.
-/

namespace CallGate.LogRecord

/-! ## Topics -/

/-- Topics that have room are read, each from the 32 bytes in its place. -/
theorem readTopics_of_le {count : Nat} (position : Nat) {rest : Bytes}
    (h : 32 * count ≤ rest.length) :
    ∃ topics,
      topics.map FixedBytes.bytes =
        (List.range count).map (fun i => (rest.drop (32 * i)).take 32) ∧
      readTopics count (.facing position rest) =
        .ok topics (.facing (position + 32 * count) (rest.drop (32 * count))) := by
  induction count generalizing position rest with
  | zero => exact ⟨[], rfl, rfl⟩
  | succ count ih =>
    rw [Nat.mul_succ] at h
    have hfirst : 32 ≤ rest.length := by omega
    have hothers : 32 * count ≤ (rest.drop 32).length := by
      rw [List.length_drop]
      omega
    -- The other topics stand behind the first.
    obtain ⟨topics, hbytes, hread⟩ := ih (position + 32) hothers
    have htopic : Reader.word (.facing position rest) =
        .ok ⟨rest.take 32, List.length_take_of_le hfirst⟩
          (.facing (position + 32) (rest.drop 32)) := Reader.fixed_of_le hfirst
    refine ⟨⟨rest.take 32, List.length_take_of_le hfirst⟩ :: topics, ?_, ?_⟩
    · -- The topic at `i` of the others is the one at `i + 1` of all.
      rw [List.map_cons, hbytes, List.range_succ_eq_map, List.map_cons, List.map_map]
      simp only [Function.comp_def, List.drop_drop, Nat.mul_succ, Nat.mul_zero, List.drop_zero,
        Nat.add_comm 32]
    · have hend : 32 + 32 * count = 32 * (count + 1) := by
        rw [Nat.mul_succ, Nat.add_comm]
      rw [readTopics, Reader.bind_of_ok htopic, Reader.bind_of_ok hread, List.drop_drop,
        Nat.add_assoc, hend]
      rfl

/-- No topic is missing if as many have room as are read. -/
theorem readTopics_of_le_div {count : Nat} {reader : Reader}
    (h : count ≤ reader.remaining / topicLength) :
    ∃ topics reader', readTopics count reader = .ok topics reader' := by
  obtain ⟨position, rest, remaining, rfl⟩ := reader
  have hroom : count ≤ rest.length / 32 := h
  have hlength : 32 * count ≤ rest.length := by omega
  obtain ⟨topics, -, hread⟩ := readTopics_of_le position hlength
  exact ⟨topics, _, hread⟩

/-! ## Behind the number of topics -/

/-- What is read of a record behind its data and the number of its topics. -/
def readTail (data : Bytes) (count : Nat) : Read LogRecord := do
  let room := (← get).remaining / topicLength
  if room < count then
    throw (.malformedRecord (.missingTopics count room))
  let topics ← readTopics count
  Reader.finish .logRecord
  return { data, topics }

theorem read_eq :
    read = (do
      let data ← Reader.counted
      let count ← Reader.u32
      readTail data count.toNat) := rfl

/-- More topics than have room are refused. -/
theorem readTail_of_lt (data : Bytes) {count : Nat} (position : Nat) {rest : Bytes}
    (h : rest.length / 32 < count) :
    readTail data count (.facing position rest) =
      .error (.malformedRecord (.missingTopics count (rest.length / 32)))
        (.facing position rest) := by
  have hroom : rest.length / topicLength < count := h
  rw [readTail, Reader.bind_of_ok (Reader.get_eq _), Reader.remaining_facing]
  simp only [if_pos hroom]
  rfl

/-- Behind the number of topics there are as many topics, if they have room, and the end. -/
theorem readTail_of_le (data : Bytes) {count : Nat} (position : Nat) {rest : Bytes}
    (h : count ≤ rest.length / 32) :
    ∃ topics,
      topics.map FixedBytes.bytes =
        (List.range count).map (fun i => (rest.drop (32 * i)).take 32) ∧
      readTail data count (.facing position rest) =
        (do Reader.finish .logRecord; return { data, topics } : Read LogRecord)
          (.facing (position + 32 * count) (rest.drop (32 * count))) := by
  have hroom : ¬rest.length / topicLength < count := Nat.not_lt.2 h
  have hlength : 32 * count ≤ rest.length := by omega
  obtain ⟨topics, hbytes, hread⟩ := readTopics_of_le position hlength
  refine ⟨topics, hbytes, ?_⟩
  rw [readTail, Reader.bind_of_ok (Reader.get_eq _), Reader.remaining_facing]
  simp only [if_neg hroom]
  exact Reader.bind_of_ok hread

/-! ## Whole records -/

/-- The length of the data that a byte string declares. -/
def dataLength (bytes : Bytes) : Nat :=
  lengthAt bytes 0

/-- The number of topics that a byte string declares. -/
def topicCount (bytes : Bytes) : Nat :=
  lengthAt bytes (4 + dataLength bytes)

/-- The sizes of the pieces of a record before its topics. -/
def pieces (bytes : Bytes) : List Nat :=
  [4, dataLength bytes, 4]

/-- How many topics have room behind their number. -/
def room (bytes : Bytes) : Nat :=
  (bytes.length - 8 - dataLength bytes) / 32

/-- One of the first pieces is cut exactly if there is no room for the data and the two counts. -/
theorem exists_cutAt_pieces_iff (bytes : Bytes) :
    (∃ offset wanted, CutAt (pieces bytes) bytes.length offset wanted) ↔
      bytes.length < 8 + dataLength bytes := by
  have hsum : (pieces bytes).sum = 8 + dataLength bytes := by
    simp only [pieces, List.sum_cons, List.sum_nil]
    omega
  rw [exists_cutAt_iff, hsum]

variable {bytes : Bytes}

/-- A byte string that ends before its topics is truncated at the first piece that does not fit. -/
theorem decode_of_cut {offset wanted : Nat} (h : CutAt (pieces bytes) bytes.length offset wanted) :
    decode bytes = .error (.truncated offset wanted (bytes.length - offset)) := by
  have hcut : CutAt (FieldType.counted.pieces bytes ++ [4]) bytes.length offset wanted := h
  have hcount (data : Bytes) (position : Nat) (rest : Bytes) (offset wanted : Nat)
      (hcut : CutAt [4] rest.length offset wanted) : ∃ reader,
      (Reader.u32 >>= fun count => readTail data count.toNat) (.facing position rest) =
        .error (.truncated (position + offset) wanted (rest.length - offset)) reader := by
    obtain ⟨reader, herror⟩ := Reader.scans_u32.truncated offset wanted hcut
    exact ⟨reader, Reader.bind_of_error herror⟩
  obtain ⟨reader, herror⟩ :=
    Reader.scans_counted.bind_truncated (fun data => hcount data (0 + _) _) hcut
  rw [decode, Reader.run_eq, read_eq, herror, Nat.zero_add]

/-- With the data and the number of topics there, what is read behind them decides. -/
theorem read_of_le (h : 8 + dataLength bytes ≤ bytes.length) :
    read (.facing 0 bytes) =
      readTail ((bytes.drop 4).take (dataLength bytes)) (topicCount bytes)
        (.facing (8 + dataLength bytes) (bytes.drop (8 + dataLength bytes))) := by
  have hdata : 4 + Bytes.toNatLE (bytes.take 4) ≤ bytes.length := by
    have hlength : dataLength bytes = Bytes.toNatLE (bytes.take 4) := rfl
    omega
  have hcount : 4 ≤ (bytes.drop (4 + dataLength bytes)).length := by
    rw [List.length_drop]
    omega
  have hend : 4 + dataLength bytes + 4 = 8 + dataLength bytes := by omega
  rw [read_eq, Reader.bind_of_ok (Reader.counted_of_le hdata)]
  show (Reader.u32 >>= fun count => readTail ((bytes.drop 4).take (dataLength bytes)) count.toNat)
    (.facing (0 + (4 + dataLength bytes)) (bytes.drop (4 + dataLength bytes))) = _
  rw [Reader.bind_of_ok (Reader.u32_of_le hcount), Reader.toNat_ofNat_take_four hcount,
    List.drop_drop, Nat.zero_add, hend]
  rfl

/-- The room for topics is what the bytes behind their number give. -/
theorem room_eq (bytes : Bytes) :
    (bytes.drop (8 + dataLength bytes)).length / 32 = room bytes := by
  rw [List.length_drop, ← Nat.sub_sub, room]

/-- More topics than there is room for are refused with both numbers. -/
theorem decode_of_room_lt (h : 8 + dataLength bytes ≤ bytes.length)
    (hroom : room bytes < topicCount bytes) :
    decode bytes = .error (.malformedRecord (.missingTopics (topicCount bytes) (room bytes))) := by
  rw [← room_eq] at hroom ⊢
  rw [decode, Reader.run_eq, read_of_le h, readTail_of_lt _ _ hroom]

/-- Where the topics have room and bytes are left behind them, the byte string is refused for
these. -/
theorem decode_of_trailing (hroom : topicCount bytes ≤ room bytes)
    (h : 8 + dataLength bytes + 32 * topicCount bytes < bytes.length) :
    decode bytes = .error (.malformedRecord (.trailing
      (bytes.length - (8 + dataLength bytes + 32 * topicCount bytes)) .logRecord)) := by
  have hfront : 8 + dataLength bytes ≤ bytes.length := by omega
  have hbehind : 0 < (bytes.drop (8 + dataLength bytes + 32 * topicCount bytes)).length := by
    rw [List.length_drop]
    omega
  rw [← room_eq] at hroom
  obtain ⟨topics, -, hread⟩ :=
    readTail_of_le ((bytes.drop 4).take (dataLength bytes)) (8 + dataLength bytes) hroom
  obtain ⟨reader, herror⟩ := (Reader.scansRecord_finish .logRecord _).trailing hbehind
  rw [List.length_drop] at herror
  rw [decode, Reader.run_eq, read_of_le hfront, hread, List.drop_drop, herror]
  rfl

/-- A byte string that ends with its last topic is a record. -/
theorem decode_of_length_eq
    (h : bytes.length = 8 + dataLength bytes + 32 * topicCount bytes) :
    ∃ record : LogRecord, decode bytes = .ok record ∧
      record.data = (bytes.drop 4).take (dataLength bytes) ∧
      record.topics.map FixedBytes.bytes = (List.range (topicCount bytes)).map
        fun i => (bytes.drop (8 + dataLength bytes + 32 * i)).take 32 := by
  have hfront : 8 + dataLength bytes ≤ bytes.length := by omega
  have hroom : topicCount bytes ≤ room bytes := by
    rw [room]
    omega
  have hend : bytes.drop (8 + dataLength bytes + 32 * topicCount bytes) = [] :=
    List.drop_eq_nil_of_le (Nat.le_of_eq h)
  rw [← room_eq] at hroom
  obtain ⟨topics, hbytes, hread⟩ :=
    readTail_of_le ((bytes.drop 4).take (dataLength bytes)) (8 + dataLength bytes) hroom
  refine ⟨⟨(bytes.drop 4).take (dataLength bytes), topics⟩, ?_, rfl, ?_⟩
  · rw [decode, Reader.run_eq, read_of_le hfront, hread, List.drop_drop, hend,
      Reader.bind_of_ok (Reader.finish_nil _ _)]
    rfl
  · simp only [List.drop_drop] at hbytes
    exact hbytes

/-- All results that reading a byte string as a log record can have, each with its condition. -/
theorem decode_cases (bytes : Bytes) :
    (bytes.length < 8 + dataLength bytes ∧ ∃ offset wanted,
      CutAt (pieces bytes) bytes.length offset wanted ∧
      decode bytes = .error (.truncated offset wanted (bytes.length - offset))) ∨
    (8 + dataLength bytes ≤ bytes.length ∧ room bytes < topicCount bytes ∧ decode bytes =
      .error (.malformedRecord (.missingTopics (topicCount bytes) (room bytes)))) ∨
    (topicCount bytes ≤ room bytes ∧
      8 + dataLength bytes + 32 * topicCount bytes < bytes.length ∧
      decode bytes = .error (.malformedRecord (.trailing
        (bytes.length - (8 + dataLength bytes + 32 * topicCount bytes)) .logRecord))) ∨
    (bytes.length = 8 + dataLength bytes + 32 * topicCount bytes ∧
      ∃ record : LogRecord, decode bytes = .ok record ∧
        record.data = (bytes.drop 4).take (dataLength bytes) ∧
        record.topics.map FixedBytes.bytes = (List.range (topicCount bytes)).map
          fun i => (bytes.drop (8 + dataLength bytes + 32 * i)).take 32) := by
  rcases Nat.lt_or_ge bytes.length (8 + dataLength bytes) with hshort | hfront
  · obtain ⟨offset, wanted, hcut⟩ := (exists_cutAt_pieces_iff bytes).2 hshort
    exact .inl ⟨hshort, offset, wanted, hcut, decode_of_cut hcut⟩
  · rcases Nat.lt_or_ge (room bytes) (topicCount bytes) with hroom | hroom
    · exact .inr (.inl ⟨hfront, hroom, decode_of_room_lt hfront hroom⟩)
    · -- Topics that have room end within the bytes, or with them.
      have hend : 8 + dataLength bytes + 32 * topicCount bytes ≤ bytes.length := by
        rw [room] at hroom
        omega
      rcases Nat.lt_or_eq_of_le hend with hmore | hlength
      · exact .inr (.inr (.inl ⟨hroom, hmore, decode_of_trailing hroom hmore⟩))
      · exact .inr (.inr (.inr ⟨hlength.symm, decode_of_length_eq hlength.symm⟩))

/-- A record is truncated exactly if one of its first three pieces is cut. -/
theorem decode_eq_truncated_iff (offset wanted available : Nat) :
    decode bytes = .error (.truncated offset wanted available) ↔
      CutAt (pieces bytes) bytes.length offset wanted ∧ available = bytes.length - offset := by
  constructor
  · intro h
    rcases decode_cases bytes with ⟨-, _, _, hcut, hdecode⟩ | ⟨-, -, hdecode⟩ | ⟨-, -, hdecode⟩ |
      ⟨-, _, hdecode, -⟩
    all_goals
      rw [h] at hdecode
      cases hdecode
    exact ⟨hcut, rfl⟩
  · rintro ⟨hcut, rfl⟩
    exact decode_of_cut hcut

/-- A record is malformed exactly if topics are missing or bytes are left behind them. -/
theorem decode_eq_malformed_iff (fault : RecordFault) :
    decode bytes = .error (.malformedRecord fault) ↔ 8 + dataLength bytes ≤ bytes.length ∧
      (room bytes < topicCount bytes ∧ fault = .missingTopics (topicCount bytes) (room bytes) ∨
        topicCount bytes ≤ room bytes ∧
          8 + dataLength bytes + 32 * topicCount bytes < bytes.length ∧
          fault = .trailing (bytes.length - (8 + dataLength bytes + 32 * topicCount bytes))
            .logRecord) := by
  constructor
  · intro h
    rcases decode_cases bytes with ⟨-, _, _, -, hdecode⟩ | ⟨hfront, hroom, hdecode⟩ |
      ⟨hroom, hmore, hdecode⟩ | ⟨-, _, hdecode, -⟩
    all_goals
      rw [h] at hdecode
      cases hdecode
    · exact ⟨hfront, .inl ⟨hroom, rfl⟩⟩
    · exact ⟨by omega, .inr ⟨hroom, hmore, rfl⟩⟩
  · rintro ⟨hfront, ⟨hroom, rfl⟩ | ⟨hroom, hmore, rfl⟩⟩
    · exact decode_of_room_lt hfront hroom
    · exact decode_of_trailing hroom hmore

theorem length_of_decode_eq_ok {record : LogRecord} (h : decode bytes = .ok record) :
    bytes.length = 8 + dataLength bytes + 32 * topicCount bytes := by
  rcases decode_cases bytes with ⟨-, _, _, -, hdecode⟩ | ⟨-, -, hdecode⟩ | ⟨-, -, hdecode⟩ |
    ⟨hlength, -⟩
  -- Only the last of the four results is a record.
  iterate 3
    · rw [h] at hdecode
      cases hdecode
  exact hlength

/-- What reads as a log record. For every byte string, with `n` the length of 32 bits in front and
`c` the number of 32 bits behind the `n` bytes of data:

* It is refused as truncated exactly when it ends before the data, within them, or before the end of
  their number of topics, and then at the first of these pieces that does not fit. So it is never
  truncated at a topic.
* Otherwise it is refused as malformed exactly when `c` topics have no room in what is left, or
  when they have and bytes are left behind them.
* Otherwise it ends with the last topic, and is read as the data and the `c` topics in their places.
* Whatever is read, topics that have room are all there. -/
theorem log_grammar (bytes : Bytes) :
    let n := lengthAt bytes 0
    let c := lengthAt bytes (4 + n)
    let room := (bytes.length - 8 - n) / 32
    (∀ offset wanted available,
      decode bytes = .error (.truncated offset wanted available) ↔
        CutAt [4, n, 4] bytes.length offset wanted ∧ available = bytes.length - offset) ∧
    ((∃ offset wanted available,
      decode bytes = .error (.truncated offset wanted available)) ↔
        bytes.length < 4 ∨ bytes.length < 4 + n ∨ bytes.length < 8 + n) ∧
    (∀ fault, decode bytes = .error (.malformedRecord fault) ↔ 8 + n ≤ bytes.length ∧
      (room < c ∧ fault = .missingTopics c room ∨
        c ≤ room ∧ 8 + n + 32 * c < bytes.length ∧
          fault = .trailing (bytes.length - (8 + n + 32 * c)) .logRecord)) ∧
    ((∃ fault, decode bytes = .error (.malformedRecord fault)) ↔ 8 + n ≤ bytes.length ∧
      (room < c ∨ 8 + n + 32 * c < bytes.length)) ∧
    ((∃ record, decode bytes = .ok record) ↔ bytes.length = 8 + n + 32 * c) ∧
    (∀ record, decode bytes = .ok record → record.data = (bytes.drop 4).take n ∧
      record.topics.map FixedBytes.bytes =
        (List.range c).map fun i => (bytes.drop (8 + n + 32 * i)).take 32) ∧
    (∀ count (reader : Reader), count ≤ reader.remaining / topicLength →
      ∃ topics reader', readTopics count reader = .ok topics reader') := by
  intro n c room
  refine ⟨decode_eq_truncated_iff, ⟨?_, ?_⟩, decode_eq_malformed_iff, ⟨?_, ?_⟩, ⟨?_, ?_⟩, ?_,
    fun count reader => readTopics_of_le_div⟩
  · rintro ⟨offset, wanted, available, h⟩
    obtain ⟨hcut, -⟩ := (decode_eq_truncated_iff _ _ _).1 h
    exact .inr (.inr ((exists_cutAt_pieces_iff bytes).1 ⟨_, _, hcut⟩))
  · intro h
    -- The bytes end before the topics, whichever piece it is that does not fit.
    have hshort : bytes.length < 8 + n := by omega
    obtain ⟨offset, wanted, hcut⟩ := (exists_cutAt_pieces_iff bytes).2 hshort
    exact ⟨offset, wanted, _, decode_of_cut hcut⟩
  · rintro ⟨fault, h⟩
    obtain ⟨hfront, ⟨hroom, -⟩ | ⟨-, hmore, -⟩⟩ := (decode_eq_malformed_iff _).1 h
    · exact ⟨hfront, .inl hroom⟩
    · exact ⟨hfront, .inr hmore⟩
  · rintro ⟨hfront, hfault⟩
    rcases Nat.lt_or_ge room c with hroom | hroom
    · exact ⟨_, decode_of_room_lt hfront hroom⟩
    · exact ⟨_, decode_of_trailing hroom (hfault.resolve_left (Nat.not_lt.2 hroom))⟩
  · rintro ⟨record, h⟩
    exact length_of_decode_eq_ok h
  · intro h
    obtain ⟨record, hrecord, -⟩ := decode_of_length_eq h
    exact ⟨record, hrecord⟩
  · intro record h
    obtain ⟨found, hfound, hdata, htopics⟩ := decode_of_length_eq (length_of_decode_eq_ok h)
    rw [h] at hfound
    cases hfound
    exact ⟨hdata, htopics⟩

/-- A record with one byte of data and one topic, whole, cut within the number of topics, with that
number raised by one, and with one more byte behind it. -/
theorem log_grammar_cut :
    let front : Bytes := [1, 0, 0, 0, 7]
    let topic : Bytes := List.replicate 31 0 ++ [5]
    CutAt [4, 1, 4] 7 5 4 ∧
      decode (front ++ [1, 0]) = .error (.truncated 5 4 2) ∧
      decode (front ++ [2, 0, 0, 0] ++ topic) = .error (.malformedRecord (.missingTopics 2 1)) ∧
      decode (front ++ [1, 0, 0, 0] ++ topic ++ [9]) =
        .error (.malformedRecord (.trailing 1 .logRecord)) ∧
      (∃ record, decode (front ++ [1, 0, 0, 0] ++ topic) = .ok record ∧ record.data = [7] ∧
        record.topics.map FixedBytes.bytes = [topic]) ∧
      ∃ topics reader, readTopics 1 (.ofBytes topic) = .ok topics reader := by
  intro front topic
  have hcut : CutAt [4, 1, 4] 7 5 4 := ⟨[4, 1], [], rfl, rfl, by decide, by decide⟩
  obtain ⟨htruncated, -⟩ := log_grammar (front ++ [1, 0])
  obtain ⟨-, -, hmissing, -⟩ := log_grammar (front ++ [2, 0, 0, 0] ++ topic)
  obtain ⟨-, -, htrailing, -⟩ := log_grammar (front ++ [1, 0, 0, 0] ++ topic ++ [9])
  obtain ⟨-, -, -, -, hok, hrecord, htopics⟩ := log_grammar (front ++ [1, 0, 0, 0] ++ topic)
  obtain ⟨record, hdecode⟩ := hok.2 (by decide +kernel)
  refine ⟨hcut, (htruncated 5 4 2).2 ⟨hcut, rfl⟩, ?_, ?_, ⟨record, hdecode, hrecord record hdecode⟩,
    htopics 1 (.ofBytes topic) (by decide +kernel)⟩
  · exact (hmissing _).2 ⟨by decide +kernel, .inl ⟨by decide +kernel, by decide +kernel⟩⟩
  · exact (htrailing _).2 ⟨by decide +kernel,
      .inr ⟨by decide +kernel, by decide +kernel, by decide +kernel⟩⟩

end CallGate.LogRecord
