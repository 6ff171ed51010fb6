import CallGate.Proofs.Message.AnswerForm

/-!
# Which buffers are answers

Every buffer is either read as an answer or refused as a malformed result. It is read exactly when
it holds all that its declared length asks for, and what stands behind the answer is not looked at:
a buffer that grows at its end is read as before.

* `CallResult.decode_of_holdsAnswer`, `CallResult.decode_of_not_holdsAnswer`: the two outcomes.
* `CallResult.decode_append`: an answer stays the same whatever comes behind its buffer.
* `CallResult.answer_accepted_iff`: both under either accounting, and from one to the other.
-/

namespace CallGate.CallResult

variable {bytes : Bytes} {accounting : GasAccounting} {requestGas : UInt64} {result : CallResult}

/-! ## Acceptance -/

/-- A buffer has a declared length that is not negative, and as many bytes as an answer with an
output of that length. -/
def HoldsAnswer (accounting : GasAccounting) (bytes : Bytes) : Prop :=
  4 ≤ bytes.length ∧ 0 ≤ Bytes.toIntLE (bytes.take 4) ∧
    accounting.answerLength + Bytes.toIntLE (bytes.take 4) ≤ bytes.length

/-- A buffer that holds an answer is decoded. -/
theorem decode_of_holdsAnswer (h : HoldsAnswer accounting bytes) (requestGas : UInt64) :
    ∃ result, decode bytes requestGas accounting = .ok result := by
  obtain ⟨-, hnonneg, hlength⟩ := h
  obtain ⟨length, hdeclared⟩ := Int.eq_ofNat_of_zero_le hnonneg
  rw [hdeclared] at hlength
  obtain ⟨created, -, hdecode⟩ := decode_of_le requestGas hdeclared (by exact_mod_cast hlength)
  exact ⟨_, hdecode⟩

/-- A buffer that holds none is refused as a malformed result. -/
theorem decode_of_not_holdsAnswer (h : ¬HoldsAnswer accounting bytes) (requestGas : UInt64) :
    ∃ fault, decode bytes requestGas accounting = .error (.malformedResult fault) := by
  have hleast : 24 ≤ accounting.answerLength := by cases accounting <;> decide
  apply decode_malformed
  -- A buffer without a whole length field is also too short for an answer.
  unfold HoldsAnswer at h
  omega

/-! ## Growing buffers -/

/-- An answer is read back from its form under the accounting that gave the form. -/
theorem decode_form_append (hstatus : result.status = .success)
    (hgas : accounting = .passThrough → result.gasLeft = requestGas)
    (houtput : result.output.length ≤ maxOutputLength) (rest : Bytes) :
    decode (encoding result.output result.created (accounting.gas? result.gasLeft) ++ rest)
      requestGas accounting = .ok result := by
  obtain ⟨status, gasLeft, output, created⟩ := result
  obtain rfl : status = .success := hstatus
  have hencode : encode output created (accounting.gas? gasLeft)
      (encodedLength output (accounting.gas? gasLeft)) =
        .ok (encoding output created (accounting.gas? gasLeft)) :=
    (encode_eq_ok_iff ..).2 ⟨houtput, Nat.le_refl _, rfl⟩
  cases accounting with
  | passThrough =>
    obtain rfl : gasLeft = requestGas := hgas rfl
    exact decode_encode_append hencode rest gasLeft nofun
  | trailer =>
    -- The gas that is read is the one in the form.
    show decode _ _ _ = .ok (success gasLeft output created)
    rw [decode_encode_append hencode rest requestGas fun _ => rfl]
    simp only [GasAccounting.gas?, GasAccounting.gasLeft_trailer_some]

/-- What is read from a buffer is also read from a longer one that begins with it. -/
theorem decode_append (h : decode bytes requestGas accounting = .ok result) (rest : Bytes) :
    decode (bytes ++ rest) requestGas accounting = .ok result := by
  obtain ⟨hstatus, hgas, houtput, behind, rfl⟩ := of_decode_eq_ok h
  rw [List.append_assoc]
  exact decode_form_append hstatus hgas houtput (behind ++ rest)

/-- An answer with its gas is also an answer where gas is not accounted for. -/
theorem decode_passThrough_of_trailer (h : decode bytes requestGas .trailer = .ok result) :
    decode bytes requestGas .passThrough =
      .ok (success requestGas result.output result.created) := by
  obtain ⟨-, -, houtput, behind, rfl⟩ := of_decode_eq_ok h
  apply decode_encode_append ((encode_eq_ok_iff ..).2 ⟨houtput, Nat.le_refl _, rfl⟩)
  nofun

/-- Every buffer is an answer or malformed, for every request.

* Under either accounting it is read exactly when its first four bytes are there, the length they
  declare is not negative, and that many bytes fit behind the length with the 20 bytes of the
  address and, where gas is accounted for, the 8 bytes of the gas.
* Every refusal is that of a malformed result.
* What is read stays the same whatever bytes follow.
* What is read where gas is accounted for is read where it is not, with the gas of the request. -/
theorem answer_accepted_iff (bytes : Bytes) (requestGas : UInt64) :
    (∀ accounting,
      let declared := Bytes.toIntLE (bytes.take 4)
      ((∃ result, decode bytes requestGas accounting = .ok result) ↔
        4 ≤ bytes.length ∧ 0 ≤ declared ∧ accounting.answerLength + declared ≤ bytes.length) ∧
      (∀ error, decode bytes requestGas accounting = .error error →
        ∃ fault, error = .malformedResult fault) ∧
      ∀ result, decode bytes requestGas accounting = .ok result →
        ∀ rest, decode (bytes ++ rest) requestGas accounting = .ok result) ∧
    ∀ result, decode bytes requestGas .trailer = .ok result →
      decode bytes requestGas .passThrough =
        .ok (success requestGas result.output result.created) := by
  refine ⟨fun accounting => ?_, fun result => decode_passThrough_of_trailer⟩
  rw [← and_assoc]
  refine ⟨?_, fun result => decode_append⟩
  by_cases hholds : HoldsAnswer accounting bytes
  · obtain ⟨result, hdecode⟩ := decode_of_holdsAnswer hholds requestGas
    refine ⟨iff_of_true ⟨result, hdecode⟩ hholds, fun error herror => ?_⟩
    rw [hdecode] at herror
    cases herror
  · obtain ⟨fault, hdecode⟩ := decode_of_not_holdsAnswer hholds requestGas
    rw [hdecode]
    refine ⟨iff_of_false nofun hholds, fun error herror => ?_⟩
    cases herror
    exact ⟨fault, rfl⟩

/-- An answer without output whose gas lacks its last byte, and the same with the byte. -/
theorem answer_accepted_iff_grown :
    let short : Bytes := List.replicate 24 0 ++ [7, 0, 0, 0, 0, 0, 0]
    (∃ error, decode short 21000 .trailer = .error error ∧
        ∃ fault, error = .malformedResult fault) ∧
      (∃ result, decode short 21000 .passThrough = .ok result ∧
        decode (short ++ [0]) 21000 .passThrough = .ok result) ∧
      decode (short ++ [0]) 21000 .trailer = .ok (success 7 [] .zero) ∧
      decode (short ++ [0]) 21000 .passThrough = .ok (success 21000 [] .zero) := by
  intro short
  obtain ⟨hshort, -⟩ := answer_accepted_iff short 21000
  obtain ⟨-, hmalformed, -⟩ := hshort .trailer
  obtain ⟨hiff, -, hgrown⟩ := hshort .passThrough
  obtain ⟨-, hwhole⟩ := answer_accepted_iff (short ++ [0]) 21000
  have herror : decode short 21000 .trailer = .error (.malformedResult (.missing 8 24 7)) := by
    decide +kernel
  have htrailer : decode (short ++ [0]) 21000 .trailer = .ok (success 7 [] .zero) := by
    decide +kernel
  obtain ⟨result, hresult⟩ := hiff.2 (by decide +kernel)
  exact ⟨⟨_, herror, hmalformed _ herror⟩, ⟨result, hresult, hgrown result hresult [0]⟩, htrailer,
    hwhole _ htrailer⟩

end CallGate.CallResult
