import Mathlib.Control.Monad.Basic
import CallGate.Proofs.Message.Answer
import CallGate.Proofs.Wire.Taken

/-!
# Answers at the front of a buffer

A result buffer is larger than the answer in it, and the bytes of an answer do not say whether its
host accounts for gas. So an answer is read whatever follows it, and what is read is the answer that
the buffer begins with: the gas left belongs to it where gas is accounted for, and stays behind
where it is not.

* `CallResult.decode_encode_append`: an answer that was written is read back, whatever follows it.
* `CallResult.of_decode_eq_ok`: a buffer that is read begins with the answer read.
* `CallResult.answer_front_iff`: both, for answers under either accounting.
-/

namespace CallGate

/-- The gas that an answer has on the wire under an accounting. -/
def GasAccounting.gas? (accounting : GasAccounting) (gasLeft : UInt64) : Option UInt64 :=
  match accounting with
  | .passThrough => none
  | .trailer => some gasLeft

theorem GasAccounting.gasLeft_trailer_some (requestGas gasLeft : UInt64) :
    GasAccounting.trailer.gasLeft requestGas (CallResult.trailer (some gasLeft)) = gasLeft :=
  Bytes.ofNat_toNatLE_u64 gasLeft

namespace CallResult

/-- To report missing bytes in other words does not change what is taken. -/
theorem takes_whole {α : Type} {read : Read α} {field : α → Field}
    (h : Reader.Takes read field) : Reader.Takes (whole read) field := by
  intro position rest value reader hwhole
  apply h
  -- A refusal stays a refusal, under another name.
  unfold whole at hwhole
  split at hwhole
  · cases hwhole
  · exact hwhole

/-! ## Reading what was written -/

/-- An answer is read back whatever follows it, if it has gas where gas is accounted for. -/
theorem decode_encode_append {output front : Bytes} {created : Address} {gas : Option UInt64}
    {capacity : Nat} (hencode : encode output created gas capacity = .ok front) (rest : Bytes)
    (requestGas : UInt64) {accounting : GasAccounting}
    (hgas : accounting = .trailer → gas.isSome) :
    decode (front ++ rest) requestGas accounting =
      .ok (success (accounting.gasLeft requestGas (trailer gas)) output created) := by
  obtain ⟨houtput, -, rfl⟩ := (encode_eq_ok_iff ..).1 hencode
  have hlength : accounting.answerLength + output.length ≤
      (encoding output created gas ++ rest).length := by
    rw [List.length_append, length_encoding, encodedLength, fixedLength]
    cases accounting with
    | passThrough =>
      show 24 + _ ≤ _
      omega
    | trailer =>
      rw [if_pos (hgas rfl)]
      show 32 + _ ≤ _
      omega
  rw [decode_encoding_append houtput created gas rest requestGas hlength]
  cases accounting with
  | passThrough => rfl
  | trailer =>
    -- The eight bytes behind the address are those of the gas.
    obtain ⟨gasLeft, rfl⟩ := Option.isSome_iff_exists.1 (hgas rfl)
    rw [trailer, Option.elim_some, List.take_left' (Bytes.length_ofNatLE 8 gasLeft.toNat)]

/-! ## What was read -/

/-- A buffer that is read begins with the form of what is read. -/
theorem of_decode_eq_ok {bytes : Bytes} {requestGas : UInt64} {accounting : GasAccounting}
    {result : CallResult} (h : decode bytes requestGas accounting = .ok result) :
    result.status = .success ∧ (accounting = .passThrough → result.gasLeft = requestGas) ∧
      result.output.length ≤ maxOutputLength ∧
      ∃ rest, bytes =
        encoding result.output result.created (accounting.gas? result.gasLeft) ++ rest := by
  obtain ⟨reader, h⟩ := Reader.of_run_eq_ok h
  rw [read_eq] at h
  obtain ⟨declared, _, -, hdeclared, h⟩ := (takes_whole Reader.takes_i32).of_bind_eq_ok h
  -- A negative length and one beyond the buffer would have been refused.
  by_cases hnegative : declared.toInt < 0
  · simp only [if_pos hnegative] at h
    cases h
  simp only [if_neg hnegative] at h
  rw [Reader.bind_of_ok (Reader.get_eq _)] at h
  split at h
  · cases h
  obtain ⟨output, _, houtput, h⟩ := Reader.of_bind_eq_ok h
  obtain ⟨hlength, _, hbody, rfl⟩ := Reader.of_take_eq_ok houtput
  rw [readTail] at h
  obtain ⟨created, behind, -, hcreated, h⟩ :=
    (takes_whole Reader.takes_address).of_bind_eq_ok h
  have hsize : (output.length : Int) = declared.toInt := by
    rw [hlength, Int.toNat_of_nonneg (Int.not_lt.1 hnegative)]
  have hbound : output.length < 2 ^ 31 := by
    have hmax := declared.toInt_lt
    omega
  -- The length that was read is the one that is written for the output.
  have hwritten : Int32.ofNat output.length = declared := by
    rw [← Int32.toInt_inj, Int32.toInt_ofNat_of_lt hbound, hsize]
  have hform (gas : Option UInt64) : encoding output created gas =
      (Field.i32 declared).encoding ++ (output ++ (created.bytes ++ trailer gas)) := by
    rw [encoding_eq, hwritten]
    rfl
  cases accounting with
  | passThrough =>
    cases h
    refine ⟨rfl, fun _ => rfl, Nat.le_of_lt_succ hbound, behind, ?_⟩
    rw [hdeclared, hbody, hcreated]
    simp [hform, success, GasAccounting.gas?, trailer, Field.encoding]
  | trailer =>
    obtain ⟨gasLeft, behind', -, hgas, h⟩ := (takes_whole Reader.takes_u64).of_bind_eq_ok h
    cases h
    refine ⟨rfl, fun haccounting => ?_, Nat.le_of_lt_succ hbound, behind', ?_⟩
    · cases haccounting
    rw [hdeclared, hbody, hcreated, hgas]
    simp [hform, success, GasAccounting.gas?, trailer, Field.encoding]

/-- Answers and the buffers that begin with them.

* An answer that was written is read back, whatever bytes follow it: with the gas of the request
  where gas is not accounted for, whether or not the answer has gas, and with its own gas where it
  is.
* A buffer is read as a result exactly when the result is a success, keeps the gas of the request
  where gas is not accounted for, and is written as the front of the buffer, with its gas left where
  gas is accounted for and without it elsewhere. -/
theorem answer_front_iff (requestGas : UInt64) :
    (∀ output created gas capacity front, encode output created gas capacity = .ok front →
      ∀ rest,
        decode (front ++ rest) requestGas .passThrough =
          .ok (success requestGas output created) ∧
        ∀ gasLeft, gas = some gasLeft →
          decode (front ++ rest) requestGas .trailer = .ok (success gasLeft output created)) ∧
    (∀ bytes accounting result, decode bytes requestGas accounting = .ok result ↔
      result.status = .success ∧ (accounting = .passThrough → result.gasLeft = requestGas) ∧
        ∃ front rest, bytes = front ++ rest ∧ ∀ capacity, front.length ≤ capacity →
          encode result.output result.created (accounting.gas? result.gasLeft) capacity =
            .ok front) := by
  refine ⟨fun output created gas capacity front hencode rest =>
    ⟨decode_encode_append hencode rest requestGas nofun, ?_⟩, ?_⟩
  · rintro gasLeft rfl
    rw [decode_encode_append hencode rest requestGas fun _ => rfl,
      GasAccounting.gasLeft_trailer_some]
  rintro bytes accounting ⟨status, gasLeft, output, created⟩
  constructor
  · intro h
    -- What was decoded is encoded again at the front of the bytes.
    obtain ⟨hstatus, hgas, houtput, rest, hbytes⟩ := of_decode_eq_ok h
    refine ⟨hstatus, hgas, _, rest, hbytes, fun capacity hcapacity => ?_⟩
    rw [length_encoding] at hcapacity
    exact (encode_eq_ok_iff ..).2 ⟨houtput, hcapacity, rfl⟩
  · rintro ⟨rfl, hgas, front, rest, rfl, hencode⟩
    have hfront := hencode _ (Nat.le_refl _)
    cases accounting with
    | passThrough =>
      obtain rfl : gasLeft = requestGas := hgas rfl
      exact decode_encode_append hfront rest gasLeft nofun
    | trailer =>
      rw [decode_encode_append hfront rest requestGas fun _ => rfl, GasAccounting.gas?,
        GasAccounting.gasLeft_trailer_some]
      rfl

/-- An answer with seven gas in a buffer with two more bytes, under either accounting. -/
theorem answer_front_iff_buffer :
    let front : Bytes := [3, 0, 0, 0, 1, 2, 3] ++ List.replicate 20 0 ++ [7, 0, 0, 0, 0, 0, 0, 0]
    encode [1, 2, 3] .zero (some 7) 64 = .ok front ∧
      decode (front ++ [9, 9]) 21000 .passThrough = .ok (success 21000 [1, 2, 3] .zero) ∧
      decode (front ++ [9, 9]) 21000 .trailer = .ok (success 7 [1, 2, 3] .zero) ∧
      ∃ form rest, front ++ [9, 9] = form ++ rest ∧
        ∀ capacity, form.length ≤ capacity →
          encode [1, 2, 3] .zero (some 7) capacity = .ok form := by
  intro front
  have hencode : encode [1, 2, 3] .zero (some 7) 64 = .ok front := by decide +kernel
  obtain ⟨hwritten, hread⟩ := answer_front_iff 21000
  obtain ⟨hpass, htrailer⟩ := hwritten _ _ _ _ _ hencode [9, 9]
  have hdecode := htrailer 7 rfl
  obtain ⟨-, -, hform⟩ := (hread _ _ _).1 hdecode
  exact ⟨hencode, hpass, hdecode, hform⟩

end CallResult

end CallGate
