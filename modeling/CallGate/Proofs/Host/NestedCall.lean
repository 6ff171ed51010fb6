import CallGate.Proofs.Host.Crossing

/-!
# Nested calls from end to end

A nested call goes through five gates: the message must fit its buffer, the boundary must take it,
the answer must fit the result buffer, and the buffer, filled up with zeros, must hold a whole
answer. Which gate stops a call, what the caller then gets and what the boundary has kept are
determined by the sizes alone.

* `Host.call_cases`: what stops a call before its answer is read.
* `Settings.readAnswer_cases`: what an answer comes to.
* `Host.call_exact`: the outcome of a nested call, gate by gate.
-/

namespace CallGate

namespace Settings

/-- An answer above the capacity of the result buffer is refused as too long. -/
theorem readAnswer_of_lt {settings : Settings} {answer : Bytes}
    (h : settings.callCapacity < answer.length) (requestGas : UInt64) :
    settings.readAnswer requestGas answer =
      .error (.status ⟨.call, settings.numbering.call, Boundary.answerTooLong⟩) := by
  rw [readAnswer, if_neg (Nat.not_le.2 h)]

/-- Any other answer is decoded from the result buffer. -/
theorem readAnswer_of_le {settings : Settings} {answer : Bytes}
    (h : answer.length ≤ settings.callCapacity) (requestGas : UInt64) :
    settings.readAnswer requestGas answer =
      (CallResult.decode (settings.resultBuffer answer) requestGas
        settings.gasAccounting).mapError .wire := by
  rw [readAnswer, if_pos h]

/-- The result buffer keeps its length when an answer is put into it. -/
theorem length_resultBuffer {settings : Settings} {answer : Bytes}
    (h : answer.length ≤ settings.callCapacity) :
    (settings.resultBuffer answer).length = settings.callCapacity := by
  rw [resultBuffer, List.length_append, List.length_replicate, Nat.add_sub_cancel' h]

/-- An answer is read if the result buffer holds all that its declared length asks for. -/
theorem readAnswer_of_declared {settings : Settings} {answer : Bytes}
    (hle : answer.length ≤ settings.callCapacity) (requestGas : UInt64) {length : Nat}
    (hdeclared : Bytes.toIntLE ((settings.resultBuffer answer).take 4) = length)
    (hlength : settings.gasAccounting.answerLength + length ≤ settings.callCapacity) :
    ∃ created : Address,
      created.bytes = ((settings.resultBuffer answer).drop (4 + length)).take 20 ∧
      settings.readAnswer requestGas answer = .ok {
        status := .success
        output := ((settings.resultBuffer answer).drop 4).take length
        created
        gasLeft := settings.gasAccounting.gasLeft requestGas
          (((settings.resultBuffer answer).drop (24 + length)).take 8) } := by
  rw [← length_resultBuffer hle] at hlength
  obtain ⟨created, hcreated, hdecode⟩ := CallResult.decode_of_le requestGas hdeclared hlength
  refine ⟨created, hcreated, ?_⟩
  rw [readAnswer_of_le hle, hdecode]
  rfl

/-- An answer that fits is malformed exactly when the result buffer declares a negative length or
one that asks for more than the buffer. -/
theorem readAnswer_eq_malformed_iff {settings : Settings} {answer : Bytes}
    (hle : answer.length ≤ settings.callCapacity) (requestGas : UInt64) :
    let declared := Bytes.toIntLE ((settings.resultBuffer answer).take 4)
    (∃ fault, settings.readAnswer requestGas answer = .error (.wire (.malformedResult fault))) ↔
      declared < 0 ∨
        (settings.callCapacity : Int) < settings.gasAccounting.answerLength + declared := by
  intro declared
  constructor
  · rintro ⟨fault, hfault⟩
    refine Decidable.byContradiction fun hnot => ?_
    -- A declared length that is not negative and fits would have been read.
    obtain ⟨length, hdeclared⟩ : ∃ length : Nat, declared = length :=
      Int.eq_ofNat_of_zero_le (by omega)
    obtain ⟨created, -, hread⟩ := readAnswer_of_declared hle requestGas hdeclared (by omega)
    rw [hread] at hfault
    cases hfault
  · intro h
    have hshort : declared < 0 ∨ (settings.resultBuffer answer).length <
        settings.gasAccounting.answerLength + declared.toNat := by
      rw [length_resultBuffer hle]
      omega
    obtain ⟨fault, hdecode⟩ := CallResult.decode_malformed requestGas hshort
    refine ⟨fault, ?_⟩
    rw [readAnswer_of_le hle, hdecode]
    rfl

/-- An answer is too long, malformed or read. -/
theorem readAnswer_cases (settings : Settings) (requestGas : UInt64) (answer : Bytes) :
    (settings.callCapacity < answer.length ∧ settings.readAnswer requestGas answer =
      .error (.status ⟨.call, settings.numbering.call, Boundary.answerTooLong⟩)) ∨
    (answer.length ≤ settings.callCapacity ∧ ∃ fault,
      settings.readAnswer requestGas answer = .error (.wire (.malformedResult fault))) ∨
    (answer.length ≤ settings.callCapacity ∧ ∃ result,
      settings.readAnswer requestGas answer = .ok result) := by
  rcases Nat.lt_or_ge settings.callCapacity answer.length with hlt | hle
  · exact .inl ⟨hlt, readAnswer_of_lt hlt requestGas⟩
  · -- What is neither too long nor malformed declares a length that fits.
    by_cases hmalformed : ∃ fault,
        settings.readAnswer requestGas answer = .error (.wire (.malformedResult fault))
    · exact .inr (.inl ⟨hle, hmalformed⟩)
    · have hwhole := mt (readAnswer_eq_malformed_iff hle requestGas).2 hmalformed
      obtain ⟨length, hdeclared⟩ : ∃ length : Nat,
          Bytes.toIntLE ((settings.resultBuffer answer).take 4) = length :=
        Int.eq_ofNat_of_zero_le (by omega)
      obtain ⟨created, -, hread⟩ := readAnswer_of_declared hle requestGas hdeclared (by omega)
      exact .inr (.inr ⟨hle, _, hread⟩)

/-- An answer gives the status of an answer too long exactly when it is. -/
theorem readAnswer_eq_status_iff (settings : Settings) (requestGas : UInt64) (answer : Bytes) :
    settings.readAnswer requestGas answer =
        .error (.status ⟨.call, settings.numbering.call, -1⟩) ↔
      settings.callCapacity < answer.length := by
  constructor
  · intro h
    rcases settings.readAnswer_cases requestGas answer
      with ⟨hlt, -⟩ | ⟨-, fault, hread⟩ | ⟨-, value, hread⟩
    · exact hlt
    · rw [hread] at h
      cases h
    · rw [hread] at h
      cases h
  · intro hlt
    exact readAnswer_of_lt hlt requestGas

end Settings

namespace Host

/-- A call message that fits is written as its encoding. -/
theorem encode_of_le {message : CallMessage} {capacity : Nat}
    (hinput : message.input.length < 2 ^ 32) (hfits : 125 + message.input.length ≤ capacity) :
    message.encode capacity = .ok message.encoding :=
  (message.encode_eq_ok_iff _ _).2 ⟨Nat.le_of_lt_succ hinput, hfits, rfl⟩

/-- A message that does not fit leaves the host as it was. -/
theorem call_of_lt {host : Host} {message : CallMessage}
    (hinput : message.input.length < 2 ^ 32)
    (hlarge : host.settings.callCapacity < 125 + message.input.length) :
    host.call message =
      (.error (.wire (.bufferOverflow (125 + message.input.length) host.settings.callCapacity)),
        host) :=
  call_of_error (CallMessage.encode_of_lt (Nat.le_of_lt_succ hinput) hlarge)

/-- A message that is kept makes a difference. -/
theorem keepMessage_ne (host : Host) (message : Bytes) :
    { host with boundary := host.boundary.keepMessage message } ≠ host := by
  intro h
  have hmessages := congrArg (fun host => host.boundary.messages.length) h
  simp [Boundary.keepMessage] at hmessages

/-- What stops a call before its answer is read. -/
theorem call_cases (host : Host) {message : CallMessage}
    (hinput : message.input.length < 2 ^ 32) (hcodes : host.boundary.FailsWithErrors) :
    (host.settings.callCapacity < 125 + message.input.length ∧
      host.call message =
        (.error (.wire
          (.bufferOverflow (125 + message.input.length) host.settings.callCapacity)), host)) ∨
    (125 + message.input.length ≤ host.settings.callCapacity ∧
      ∃ code, host.boundary.failures.find? host.settings.numbering.call = some code ∧
        host.call message =
          (.error (.status ⟨.call, host.settings.numbering.call, code⟩), host)) ∨
    (125 + message.input.length ≤ host.settings.callCapacity ∧
      host.boundary.failures.find? host.settings.numbering.call = none ∧
      host.call message =
        (host.settings.readAnswer message.gas (host.boundary.answer message.encoding),
          { host with boundary := host.boundary.keepMessage message.encoding })) := by
  rcases Nat.lt_or_ge host.settings.callCapacity (125 + message.input.length) with hlt | hle
  · exact .inl ⟨hlt, call_of_lt hinput hlt⟩
  · have hencode := encode_of_le hinput hle
    cases hfind : host.boundary.failures.find? host.settings.numbering.call with
    | some code =>
      exact .inr (.inl ⟨hle, code, rfl, call_of_some hencode hfind (hcodes.ne_zero hfind)⟩)
    | none => exact .inr (.inr ⟨hle, rfl, call_of_none hencode hfind⟩)

/-- A call overflows its buffer exactly when the message is larger. -/
theorem call_eq_bufferOverflow_iff (host : Host) {message : CallMessage}
    (hinput : message.input.length < 2 ^ 32) (hcodes : host.boundary.FailsWithErrors) :
    (host.call message).1 = .error (.wire
        (.bufferOverflow (125 + message.input.length) host.settings.callCapacity)) ↔
      host.settings.callCapacity < 125 + message.input.length := by
  constructor
  · intro h
    rcases call_cases host hinput hcodes with ⟨hlt, -⟩ | ⟨-, code, -, hcall⟩ | ⟨-, -, hcall⟩
    · exact hlt
    · rw [hcall] at h
      cases h
    · -- The answer of the boundary never says that the message was too large.
      rw [hcall] at h
      rcases host.settings.readAnswer_cases message.gas (host.boundary.answer message.encoding)
        with ⟨-, hread⟩ | ⟨-, fault, hread⟩ | ⟨-, value, hread⟩ <;> rw [hread] at h <;> cases h
  · intro hlt
    rw [call_of_lt hinput hlt]

/-- A call gives a status and leaves the host as it was exactly when that status is set for its
number. -/
theorem call_eq_status_iff {host : Host} {message : CallMessage}
    (hinput : message.input.length < 2 ^ 32) (hcodes : host.boundary.FailsWithErrors)
    (hfits : 125 + message.input.length ≤ host.settings.callCapacity) (code : Int) :
    (host.call message).1 = .error (.status ⟨.call, host.settings.numbering.call, code⟩) ∧
        (host.call message).2 = host ↔
      host.boundary.failures.find? host.settings.numbering.call = some code := by
  constructor
  · rintro ⟨hresult, hhost⟩
    rcases call_cases host hinput hcodes with ⟨hlt, -⟩ | ⟨-, code', hfind, hcall⟩ | ⟨-, -, hcall⟩
    · exact absurd hlt (Nat.not_lt.2 hfits)
    · rw [hcall] at hresult
      cases hresult
      exact hfind
    · -- An answer too long gives a status as well, but the boundary has kept its message.
      rw [hcall] at hhost
      exact absurd hhost (keepMessage_ne host _)
  · intro hfind
    rw [call_of_some (encode_of_le hinput hfits) hfind (hcodes.ne_zero hfind)]
    exact ⟨rfl, rfl⟩

/-- The kind of failure tells what stopped a call. -/
theorem kind_of_call_eq_error {host : Host} {message : CallMessage} {error : HostError}
    (hinput : message.input.length < 2 ^ 32) (hcodes : host.boundary.FailsWithErrors)
    (herror : (host.call message).1 = .error error) :
    error.kind =
      if host.settings.callCapacity < 125 + message.input.length then .bufferOverflow
      else if (host.boundary.failures.find? host.settings.numbering.call).isSome ∨
          host.settings.callCapacity < (host.boundary.answer message.encoding).length then
        .boundaryError
      else .malformedResult := by
  rcases call_cases host hinput hcodes
    with ⟨hlt, hcall⟩ | ⟨hle, code, hfind, hcall⟩ | ⟨hle, hfind, hcall⟩
  · -- The message does not fit.
    rw [hcall] at herror
    cases herror
    rw [if_pos hlt]
    rfl
  · rw [hcall] at herror
    cases herror
    rw [if_neg (Nat.not_lt.2 hle), hfind, if_pos (.inl Option.isSome_some)]
    rfl
  · rw [hcall] at herror
    rw [if_neg (Nat.not_lt.2 hle), hfind]
    -- The call was answered, so the answer is to blame.
    rcases host.settings.readAnswer_cases message.gas (host.boundary.answer message.encoding)
      with ⟨hlong, hread⟩ | ⟨hshort, fault, hread⟩ | ⟨-, value, hread⟩
    · rw [hread] at herror
      cases herror
      rw [if_pos (.inr hlong)]
      rfl
    · rw [hread] at herror
      cases herror
      rw [if_neg (by simpa using hshort)]
      rfl
    · rw [hread] at herror
      cases herror

/-- The outcome of a nested call. With `capacity` the size of both buffers, the first gate that
stops the call decides:

* a message larger than `capacity` overflows, and nothing reaches the boundary;
* a number that is set to fail gives its status, and the boundary keeps nothing;
* otherwise the boundary keeps the message and asks the responder once, and an answer longer than
  `capacity` gives the status `-1`;
* otherwise the answer is filled up with zeros to `capacity` bytes, and a declared length that is
  negative or asks for more than `capacity` makes the answer malformed;
* otherwise the call succeeds with what the filled buffer says.

The kind of failure tells the gates apart up to the two statuses. -/
theorem call_exact (host : Host) (message : CallMessage)
    (hinput : message.input.length < 2 ^ 32) (hcodes : host.boundary.FailsWithErrors) :
    let capacity := host.settings.callCapacity
    let number := host.settings.numbering.call
    let accounting := host.settings.gasAccounting
    let size := 125 + message.input.length
    let answer := host.boundary.answer message.encoding
    let buffer := host.settings.resultBuffer answer
    let declared := Bytes.toIntLE (buffer.take 4)
    let result := (host.call message).1
    let host' := (host.call message).2
    (result = .error (.wire (.bufferOverflow size capacity)) ↔ capacity < size) ∧
    (capacity < size → host' = host) ∧
    (size ≤ capacity →
      message.encode capacity = .ok message.encoding ∧
      (∀ code, result = .error (.status ⟨.call, number, code⟩) ∧ host' = host ↔
        host.boundary.failures.find? number = some code) ∧
      (host.boundary.failures.find? number = none →
        host' = { host with boundary := host.boundary.keepMessage message.encoding } ∧
        (result = .error (.status ⟨.call, number, -1⟩) ↔ capacity < answer.length) ∧
        (answer.length ≤ capacity →
          ((∃ fault, result = .error (.wire (.malformedResult fault))) ↔
            declared < 0 ∨ (capacity : Int) < accounting.answerLength + declared) ∧
          (∀ length : Nat, declared = length → accounting.answerLength + length ≤ capacity →
            ∃ created : Address, created.bytes = (buffer.drop (4 + length)).take 20 ∧
              result = .ok {
                status := .success
                output := (buffer.drop 4).take length
                created
                gasLeft := accounting.gasLeft message.gas
                  ((buffer.drop (24 + length)).take 8) })))) ∧
    (∀ error, result = .error error → error.kind =
      if capacity < size then .bufferOverflow
      else if (host.boundary.failures.find? number).isSome ∨ capacity < answer.length then
        .boundaryError
      else .malformedResult) := by
  intro capacity number accounting size answer buffer declared result host'
  refine ⟨call_eq_bufferOverflow_iff host hinput hcodes, fun hlt => ?_, fun hfits => ?_,
    fun error => kind_of_call_eq_error hinput hcodes⟩
  · exact congrArg Prod.snd (call_of_lt hinput hlt)
  · have hencode := encode_of_le hinput hfits
    refine ⟨hencode, call_eq_status_iff hinput hcodes hfits, fun hfind => ?_⟩
    -- The boundary keeps the message, and its answer decides.
    have hcall := call_of_none hencode hfind
    have hresult : result = host.settings.readAnswer message.gas answer :=
      congrArg Prod.fst hcall
    rw [hresult]
    exact ⟨congrArg Prod.snd hcall, Settings.readAnswer_eq_status_iff _ _ _, fun hle =>
      ⟨Settings.readAnswer_eq_malformed_iff hle message.gas,
        fun length => Settings.readAnswer_of_declared hle message.gas⟩⟩

/-- An answer of five bytes is filled up with zeros: its created address and its gas are zero. The
responder, which counts what it is asked, was asked once. -/
theorem call_exact_short_answer :
    let settings : Settings := { callCapacity := 160, gasAccounting := .trailer }
    let counting (asked : Nat) : Responder :=
      { Memory := Nat, memory := asked, respond := fun n _ => ([1, 0, 0, 0, 255], n + 1) }
    let boundary : Boundary := { responder := some (counting 0) }
    let host : Host := ⟨boundary, { origin := .zero }, .blank, settings⟩
    let message : CallMessage := { (default : CallMessage) with gas := 21000 }
    message.input.length < 2 ^ 32 ∧ boundary.FailsWithErrors ∧
      (host.call message).2.boundary.responder = some (counting 1) ∧
      ∃ created : Address, created.bytes = List.replicate 20 0 ∧
        (host.call message).1 =
          .ok { status := .success, gasLeft := 0, output := [255], created } := by
  intro settings counting boundary host message
  have hinput : message.input.length < 2 ^ 32 := by decide
  have hcodes : boundary.FailsWithErrors := by decide
  obtain ⟨hkept, -, hanswer⟩ :=
    ((call_exact host message hinput hcodes).2.2.1 (by decide)).2.2 rfl
  refine ⟨hinput, hcodes, ?_, (hanswer (by decide)).2 1 (by decide) (by decide)⟩
  rw [hkept]
  rfl

end Host

end CallGate
