import CallGate.Proofs.Host.NestedCall
import CallGate.Proofs.Settings.Check

/-!
# Calls that are echoed

A responder that reads a call message and answers with its input and destination is understood
under all settings that pass their check: a message that fits its buffer leaves room for the
answer, with gas or without.

* `Host.call_echo`: what comes back from an echo, and what the boundary has kept.
-/

namespace CallGate

/-- An echo answers bytes that read as a call with the input and the destination of that call. -/
theorem Responder.echo_of_ok {bytes answer : Bytes} {message : CallMessage}
    {gas : Option UInt64} {room : Nat} (hdecode : CallMessage.decode bytes = .ok message)
    (hencode : CallResult.encode message.input message.destination gas room = .ok answer) :
    (Responder.echo gas room).answer bytes = answer := by
  simp only [Responder.answer, Responder.echo, Responder.stateless, hdecode, hencode]

namespace GasAccounting

/-- The gas that is read behind an answer filled up with zeros. Zeros are read only where the answer
has no gas. -/
theorem gasLeft_trailer_zeros (accounting : GasAccounting) (requestGas : UInt64)
    {gas : Option UInt64} {zeros : Nat} (hzeros : gas = none → 8 ≤ zeros) :
    accounting.gasLeft requestGas ((CallResult.trailer gas ++ List.replicate zeros 0).take 8) =
      match accounting with
      | .passThrough => requestGas
      | .trailer => gas.getD 0 := by
  cases accounting with
  | passThrough => rfl
  | trailer =>
    rw [gasLeft]
    cases gas with
    | none =>
      -- Nothing but zeros is left to read.
      rw [CallResult.trailer, Option.elim_none, List.nil_append, List.take_replicate,
        Nat.min_eq_left (hzeros rfl)]
      rfl
    | some gas =>
      rw [CallResult.trailer, Option.elim_some, List.take_left' (Bytes.length_ofNatLE _ _),
        Bytes.ofNat_toNatLE_u64]
      rfl

/-- The gas that is left is read back from behind the answer, in the accounting that puts it
there. -/
theorem gasLeft_trailer_append (accounting : GasAccounting) (requestGas : UInt64)
    (gas : Option UInt64) {zeros : Nat} (hzeros : 8 ≤ zeros) :
    accounting.gasLeft requestGas ((CallResult.trailer gas ++ List.replicate zeros 0).take 8) =
      match accounting with
      | .passThrough => requestGas
      | .trailer => gas.getD 0 :=
  accounting.gasLeft_trailer_zeros requestGas fun _ => hzeros

end GasAccounting

namespace Host

/-- A call that is echoed succeeds with its own input and destination. The boundary keeps a message
that reads as the call, and the responder was asked this message once. The answer fits the result
buffer. Without accounting the gas left is that of the call, and with it that of the answer, zero
if the answer has none. -/
theorem call_echo {host : Host} {message : CallMessage} {responder : Responder}
    {gas : Option UInt64} {room : Nat} (hsettings : host.settings.check = .ok ())
    (hinput : message.input.length ≤ host.settings.callCapacity - 125)
    (hfind : host.boundary.failures.find? host.settings.numbering.call = none)
    (hresponder : host.boundary.responder = some responder)
    (hroom : CallResult.encodedLength message.input gas ≤ room)
    (hecho : ∀ bytes answer, CallMessage.decode bytes = .ok message →
      CallResult.encode message.input message.destination gas room = .ok answer →
      responder.answer bytes = answer) :
    ∃ encoded answer,
      CallResult.encode message.input message.destination gas room = .ok answer ∧
      responder.answer encoded = answer ∧
      answer.length ≤ host.settings.callCapacity ∧
      (host.call message).2.boundary.messages = host.boundary.messages ++ [encoded] ∧
      (host.call message).2.boundary.responder = some (responder.after [encoded]) ∧
      CallMessage.decode encoded = .ok message ∧
      (host.call message).1 = .ok {
        status := .success
        output := message.input
        created := message.destination
        gasLeft := match host.settings.gasAccounting with
          | .passThrough => message.gas
          | .trailer => gas.getD 0 } := by
  obtain ⟨⟨hmin, hmax⟩, -, -⟩ := host.settings.check_eq_ok_iff.1 hsettings
  have houtput : message.input.length ≤ maxOutputLength := by
    rw [maxOutputLength]
    omega
  have hcount : message.input.length ≤ maxCountedLength := Nat.le_trans houtput (by decide)
  have hencode : message.encode host.settings.callCapacity = .ok message.encoding :=
    (message.encode_eq_ok_iff _ _).2 ⟨hcount, by
      rw [CallMessage.encodedLength, CallMessage.fixedLength]
      omega, rfl⟩
  have hdecode := CallMessage.decode_encoding hcount
  have hreply : CallResult.encode message.input message.destination gas room =
      .ok (CallResult.encoding message.input message.destination gas) :=
    (CallResult.encode_eq_ok_iff _ _ _ _ _).2 ⟨houtput, hroom, rfl⟩
  have hresponse := hecho _ _ hdecode hreply
  have hanswer : host.boundary.answer message.encoding =
      CallResult.encoding message.input message.destination gas := by
    rw [Boundary.answer, hresponder, Option.elim_some, hresponse]
  -- The fixed part of a message is larger than that of an answer by more than the gas.
  have hlength : (CallResult.encoding message.input message.destination gas).length ≤
      24 + message.input.length + 8 := by
    rw [CallResult.length_encoding, CallResult.encodedLength, CallResult.fixedLength]
    split <;> omega
  have hfits : (host.boundary.answer message.encoding).length ≤ host.settings.callCapacity := by
    rw [hanswer]
    omega
  refine ⟨message.encoding, _, hreply, hresponse, ?_, ?_, ?_, hdecode, ?_⟩
  · rwa [hanswer] at hfits
  · rw [call_of_none hencode hfind]
    rfl
  · rw [call_of_none hencode hfind, Boundary.keepMessage, hresponder, Option.map_some]
  · rw [call_of_none hencode hfind, Settings.readAnswer_of_le hfits, Settings.resultBuffer, hanswer]
    have hleast : host.settings.gasAccounting.answerLength ≤ 32 := by
      cases host.settings.gasAccounting <;> decide
    have hwhole : host.settings.gasAccounting.answerLength + message.input.length ≤
        (CallResult.encoding message.input message.destination gas ++
          List.replicate (host.settings.callCapacity -
            (CallResult.encoding message.input message.destination gas).length) 0).length := by
      rw [List.length_append, List.length_replicate]
      omega
    have hdecode := CallResult.decode_encoding_append houtput message.destination gas _
      message.gas hwhole
    rw [hdecode, GasAccounting.gasLeft_trailer_append _ _ _ (by omega)]
    rfl

/-- With accounting, an echo with seven gas left is understood as such. -/
theorem call_echo_trailer :
    let settings : Settings := { gasAccounting := .trailer }
    let boundary : Boundary := { responder := some (Responder.echo (some 7) 10240) }
    let host : Host := ⟨boundary, { origin := .zero }, .blank, settings⟩
    let message : CallMessage := { (default : CallMessage) with input := [1, 2, 3], gas := 21000 }
    settings.check = .ok () ∧ message.input.length ≤ settings.callCapacity - 125 ∧
      boundary.failures.find? settings.numbering.call = none ∧
      CallResult.encodedLength message.input (some 7) ≤ 10240 ∧
      (host.call message).1 = .ok {
        status := .success, gasLeft := 7, output := [1, 2, 3], created := default } := by
  intro settings boundary host message
  have hsettings : host.settings.check = .ok () := rfl
  have hinput : message.input.length ≤ host.settings.callCapacity - 125 := by decide
  have hresponder : host.boundary.responder = some (Responder.echo (some 7) 10240) := rfl
  have hroom : CallResult.encodedLength message.input (some 7) ≤ 10240 := by decide
  obtain ⟨encoded, answer, -, -, -, -, -, -, hresult⟩ :=
    call_echo hsettings hinput rfl hresponder hroom fun _ _ hdecode hencode =>
      Responder.echo_of_ok hdecode hencode
  exact ⟨hsettings, hinput, rfl, hroom, hresult⟩

end Host

end CallGate
