import CallGate.Proofs.Message.Layout

/-!
# Reading an answer from a result buffer

An answer is read from the front of a buffer. It is accepted exactly when its declared length is
not negative and the buffer holds all that the declared length asks for, and every refusal is a
malformed result.

* `CallResult.decode_of_le`: what is read from a buffer that holds a whole answer.
* `CallResult.decode_malformed`: all other buffers are refused.
* `CallResult.decode_encoding_append`: an answer is read back from any buffer that it begins.
-/

namespace CallGate

/-- Size of an answer with empty output, up to the last byte that is read. -/
def GasAccounting.answerLength : GasAccounting → Nat
  | .passThrough => 24
  | .trailer => 32

/-- The gas left after a call, from the gas of the request and the eight bytes after the created
address. -/
def GasAccounting.gasLeft (accounting : GasAccounting) (requestGas : UInt64) (trailer : Bytes) :
    UInt64 :=
  match accounting with
  | .passThrough => requestGas
  | .trailer => UInt64.ofNat (Bytes.toNatLE trailer)

namespace CallResult

variable {α : Type}

theorem whole_of_ok {read : Read α} {reader reader' : Reader} {value : α}
    (h : read reader = .ok value reader') : whole read reader = .ok value reader' := by
  rw [whole, h]

theorem whole_of_truncated {read : Read α} {reader reader' : Reader}
    {offset wanted available : Nat}
    (h : read reader = .error (.truncated offset wanted available) reader') :
    whole read reader = .error (.malformedResult (.missing wanted offset available)) reader' := by
  rw [whole, h]

/-! ## Behind the output -/

/-- What is read of an answer behind its output. -/
def readTail (requestGas : UInt64) (accounting : GasAccounting) (output : Bytes) :
    Read CallResult := do
  let created ← whole Reader.address
  let gasLeft ← match accounting with
    | .passThrough => pure requestGas
    | .trailer => whole Reader.u64
  return success gasLeft output created

theorem read_eq (requestGas : UInt64) (accounting : GasAccounting) :
    read requestGas accounting = (do
      let declared := (← whole Reader.i32).toInt
      if declared < 0 then
        throw (.malformedResult (.negativeLength declared))
      let available := (← get).remaining
      if available < declared.toNat then
        throw (.malformedResult (.outputTooLong declared.toNat available))
      let output ← Reader.take declared.toNat
      readTail requestGas accounting output) := by
  unfold read readTail
  rfl

/-- The created address and the gas are read if there are bytes for them. -/
theorem readTail_of_le (requestGas : UInt64) {accounting : GasAccounting} (output : Bytes)
    (position : Nat) {rest : Bytes} (h : accounting.answerLength ≤ 4 + rest.length) :
    ∃ created : Address, created.bytes = rest.take 20 ∧ ∃ reader,
      readTail requestGas accounting output (.facing position rest) =
        .ok (success (accounting.gasLeft requestGas ((rest.drop 20).take 8)) output created)
          reader := by
  have hleast : 24 ≤ accounting.answerLength := by cases accounting <;> decide
  have htail : 20 ≤ rest.length := by omega
  obtain ⟨created, hcreated, haddress⟩ := Reader.address_of_le position htail
  refine ⟨created, hcreated, ?_⟩
  rw [readTail, Reader.bind_of_ok (whole_of_ok haddress)]
  cases accounting with
  | passThrough => exact ⟨_, rfl⟩
  | trailer =>
    have hgas : 8 ≤ (rest.drop 20).length := by
      simp only [List.length_drop, GasAccounting.answerLength] at h ⊢
      omega
    simp only []
    rw [Reader.bind_of_ok (whole_of_ok (Reader.u64_of_le hgas))]
    exact ⟨_, rfl⟩

/-- Without bytes for the created address and the gas the answer is refused. -/
theorem readTail_of_lt (requestGas : UInt64) {accounting : GasAccounting} (output : Bytes)
    (position : Nat) {rest : Bytes} (h : 4 + rest.length < accounting.answerLength) :
    ∃ fault reader, readTail requestGas accounting output (.facing position rest) =
      .error (.malformedResult fault) reader := by
  rw [readTail]
  by_cases htail : 20 ≤ rest.length
  · obtain ⟨created, -, haddress⟩ := Reader.address_of_le position htail
    rw [Reader.bind_of_ok (whole_of_ok haddress)]
    -- The address is there, so the gas is missing.
    cases accounting with
    | passThrough =>
      rw [GasAccounting.answerLength] at h
      omega
    | trailer =>
      have hgas : (rest.drop 20).length < 8 := by
        simp only [List.length_drop, GasAccounting.answerLength] at h ⊢
        omega
      simp only []
      rw [Reader.bind_of_error (whole_of_truncated (Reader.u64_of_lt hgas))]
      exact ⟨_, _, rfl⟩
  · rw [Reader.bind_of_error (whole_of_truncated (Reader.address_of_lt (Nat.not_le.1 htail)))]
    exact ⟨_, _, rfl⟩

/-! ## Whole answers -/

variable {bytes : Bytes} {accounting : GasAccounting}

/-- A buffer without room for the length of the output is refused. -/
theorem decode_of_lt_four (requestGas : UInt64) (h : bytes.length < 4) :
    ∃ fault, decode bytes requestGas accounting = .error (.malformedResult fault) := by
  rw [decode, Reader.run_eq, read_eq,
    Reader.bind_of_error (whole_of_truncated (Reader.i32_of_lt h))]
  exact ⟨_, rfl⟩

/-- A negative length of the output is refused. -/
theorem decode_of_negative (requestGas : UInt64) (h4 : 4 ≤ bytes.length)
    (hnegative : Bytes.toIntLE (bytes.take 4) < 0) :
    ∃ fault, decode bytes requestGas accounting = .error (.malformedResult fault) := by
  obtain ⟨declared, hvalue, hi32⟩ := Reader.i32_of_le 0 h4
  rw [← hvalue] at hnegative
  rw [decode, Reader.run_eq, read_eq, Reader.bind_of_ok (whole_of_ok hi32), if_pos hnegative]
  exact ⟨_, rfl⟩

/-- An output that reaches beyond the buffer is refused. -/
theorem decode_of_outputTooLong (requestGas : UInt64) (h4 : 4 ≤ bytes.length) {length : Nat}
    (hdeclared : Bytes.toIntLE (bytes.take 4) = length) (hshort : bytes.length < 4 + length) :
    ∃ fault, decode bytes requestGas accounting = .error (.malformedResult fault) := by
  obtain ⟨declared, hvalue, hi32⟩ := Reader.i32_of_le 0 h4
  rw [hdeclared] at hvalue
  have hremaining : (Reader.facing (0 + 4) (bytes.drop 4)).remaining < length := by
    rw [Reader.remaining_facing, List.length_drop]
    omega
  rw [decode, Reader.run_eq, read_eq, Reader.bind_of_ok (whole_of_ok hi32)]
  simp only [hvalue, Int.toNat_natCast]
  rw [if_neg (by omega), Reader.bind_of_ok (Reader.get_eq _), if_pos hremaining]
  exact ⟨_, rfl⟩

/-- A buffer that holds the output is read on behind it. -/
theorem read_facing_eq_readTail (requestGas : UInt64) (accounting : GasAccounting) {length : Nat}
    (hdeclared : Bytes.toIntLE (bytes.take 4) = length) (hlength : 4 + length ≤ bytes.length) :
    read requestGas accounting (.facing 0 bytes) =
      readTail requestGas accounting ((bytes.drop 4).take length)
        (.facing (0 + 4 + length) (bytes.drop (4 + length))) := by
  have h4 : 4 ≤ bytes.length := by omega
  obtain ⟨declared, hvalue, hi32⟩ := Reader.i32_of_le 0 h4
  rw [hdeclared] at hvalue
  have hbody : length ≤ (bytes.drop 4).length := by
    rw [List.length_drop]
    omega
  have hremaining : ¬(Reader.facing (0 + 4) (bytes.drop 4)).remaining < length :=
    Nat.not_lt.2 hbody
  rw [read_eq, Reader.bind_of_ok (whole_of_ok hi32)]
  simp only [hvalue, Int.toNat_natCast]
  rw [if_neg (by omega), Reader.bind_of_ok (Reader.get_eq _), if_neg hremaining,
    Reader.bind_of_ok (Reader.take_of_le hbody), List.drop_drop]

/-- A buffer that holds all of an answer is read as that answer; the rest of it is not looked
at. -/
theorem decode_of_le {length : Nat} (requestGas : UInt64)
    (hdeclared : Bytes.toIntLE (bytes.take 4) = length)
    (hlength : accounting.answerLength + length ≤ bytes.length) :
    ∃ created : Address, created.bytes = (bytes.drop (4 + length)).take 20 ∧
      decode bytes requestGas accounting =
        .ok (success
          (accounting.gasLeft requestGas ((bytes.drop (24 + length)).take 8))
          ((bytes.drop 4).take length) created) := by
  have hleast : 24 ≤ accounting.answerLength := by cases accounting <;> decide
  have htail : accounting.answerLength ≤ 4 + (bytes.drop (4 + length)).length := by
    rw [List.length_drop]
    omega
  obtain ⟨created, hcreated, reader, hread⟩ := readTail_of_le requestGas
    ((bytes.drop 4).take length) (0 + 4 + length) htail
  refine ⟨created, hcreated, ?_⟩
  have hoffset : 4 + length + 20 = 24 + length := by omega
  rw [decode, Reader.run_eq, read_facing_eq_readTail requestGas accounting hdeclared (by omega),
    hread, List.drop_drop, hoffset]

/-- A buffer that does not hold all of an answer is refused. -/
theorem decode_malformed (requestGas : UInt64)
    (h : Bytes.toIntLE (bytes.take 4) < 0 ∨
      bytes.length < accounting.answerLength + (Bytes.toIntLE (bytes.take 4)).toNat) :
    ∃ fault, decode bytes requestGas accounting = .error (.malformedResult fault) := by
  rcases Nat.lt_or_ge bytes.length 4 with hlt | h4
  · exact decode_of_lt_four requestGas hlt
  rcases Int.lt_or_le (Bytes.toIntLE (bytes.take 4)) 0 with hnegative | hnonneg
  · exact decode_of_negative requestGas h4 hnegative
  obtain ⟨length, hdeclared⟩ := Int.eq_ofNat_of_zero_le hnonneg
  rcases Nat.lt_or_ge bytes.length (4 + length) with hshort | hbody
  · exact decode_of_outputTooLong requestGas h4 hdeclared hshort
  -- The output is there, so the address or the gas is missing.
  have htail : 4 + (bytes.drop (4 + length)).length < accounting.answerLength := by
    rw [List.length_drop]
    omega
  obtain ⟨fault, reader, hread⟩ := readTail_of_lt requestGas ((bytes.drop 4).take length)
    (0 + 4 + length) htail
  refine ⟨fault, ?_⟩
  rw [decode, Reader.run_eq, read_facing_eq_readTail requestGas accounting hdeclared hbody, hread]

/-- The declared length of an answer is that of its output. -/
theorem toIntLE_length {output : Bytes} (h : output.length ≤ maxOutputLength) :
    Bytes.toIntLE (Bytes.ofNatLE 4 (Int32.ofNat output.length).toUInt32.toNat) =
      output.length := by
  have h4 : 4 ≤ (Bytes.ofNatLE 4 (Int32.ofNat output.length).toUInt32.toNat ++ []).length := by
    simp
  obtain ⟨value, hvalue, hread⟩ := Reader.i32_of_le 0 h4
  rw [Reader.i32_append] at hread
  cases hread
  rw [List.take_left' (Bytes.length_ofNatLE _ _)] at hvalue
  rw [← hvalue]
  have hlt : output.length < 2 ^ 31 := Nat.lt_of_le_of_lt h (by decide)
  exact Int32.toInt_ofNat_of_lt hlt

/-- An answer is read back from any buffer that it begins. Where gas is accounted for, the eight
bytes after the created address count as gas, whether or not the answer has any. -/
theorem decode_encoding_append {output : Bytes} (houtput : output.length ≤ maxOutputLength)
    (created : Address) (gas : Option UInt64) (rest : Bytes) (requestGas : UInt64)
    {accounting : GasAccounting}
    (hlength : accounting.answerLength + output.length ≤
      (encoding output created gas ++ rest).length) :
    decode (encoding output created gas ++ rest) requestGas accounting =
      .ok (success (accounting.gasLeft requestGas ((trailer gas ++ rest).take 8)) output
        created) := by
  have h4 := Bytes.length_ofNatLE 4 (Int32.ofNat output.length).toUInt32.toNat
  have hdeclared : Bytes.toIntLE ((encoding output created gas ++ rest).take 4) =
      output.length := by
    rw [encoding_eq, List.append_assoc, List.take_left' h4, toIntLE_length houtput]
  obtain ⟨created', hcreated, hdecode⟩ := decode_of_le requestGas hdeclared hlength
  rw [hdecode]
  -- Behind the length stand the output, the address and the gas.
  have hbody : (encoding output created gas ++ rest).drop 4 =
      output ++ (created.bytes ++ (trailer gas ++ rest)) := by
    rw [encoding_eq, List.append_assoc, List.drop_left' h4]
    simp only [List.append_assoc]
  have htail : (encoding output created gas ++ rest).drop (4 + output.length) =
      created.bytes ++ (trailer gas ++ rest) := by
    rw [← List.drop_drop, hbody, List.drop_left]
  have hgas : (encoding output created gas ++ rest).drop (24 + output.length) =
      trailer gas ++ rest := by
    have hoffset : 24 + output.length = 4 + output.length + 20 := by omega
    rw [hoffset, ← List.drop_drop, htail, List.drop_left' created.length_bytes]
  rw [htail, List.take_left' created.length_bytes] at hcreated
  rw [FixedBytes.ext_bytes hcreated, hbody, List.take_left, hgas]

end CallResult

end CallGate
