import CallGate.Host.Basic
import CallGate.Proofs.Gate.Boundary
import CallGate.Proofs.Message.Answer

/-!
# Crossings of a host

What each operation that leaves the sandbox makes of the boundary. A number that is set to fail
changes nothing at the boundary; otherwise one payload or one message is kept.

* `Host.emitLog_of_none`, `Host.selfDestruct_of_none`, `Host.finish_of_none`: payloads that the
  boundary takes; with `_of_some` those that it refuses.
* `Host.call_of_none`, `Host.call_of_some`: nested calls whose message fits.
-/

namespace CallGate

namespace Settings

/-- The result buffer of a call, all zero before, after an answer that fits it. -/
def resultBuffer (settings : Settings) (answer : Bytes) : Bytes :=
  answer ++ List.replicate (settings.callCapacity - answer.length) 0

/-- What a call makes of the answer of the boundary. -/
def readAnswer (settings : Settings) (requestGas : UInt64) (answer : Bytes) :
    Except HostError CallResult :=
  if answer.length ≤ settings.callCapacity then
    (CallResult.decode (settings.resultBuffer answer) requestGas settings.gasAccounting).mapError
      .wire
  else .error (.status ⟨.call, settings.numbering.call, Boundary.answerTooLong⟩)

end Settings

namespace Host

/-! ## Payloads -/

/-- A log record that cannot be written does not reach the boundary. -/
theorem emitLog_of_error {host : Host} {record : LogRecord} {error : WireError}
    (hencode : record.encode host.settings.logCapacity = .error error) :
    host.emitLog record = (.error (.wire error), host) := by
  rw [emitLog, hencode]

/-- A log record whose number is set to fail changes nothing. -/
theorem emitLog_of_some {host : Host} {record : LogRecord} {encoded : Bytes}
    (hencode : record.encode host.settings.logCapacity = .ok encoded) {code : Int}
    (hfind : host.boundary.failures.find? host.settings.numbering.log = some code) :
    host.emitLog record = ((host.bridge.check .log code).mapError .status, host) := by
  rw [emitLog, hencode]
  simp only [Bridge.emitLog]
  rw [Bridge.notify_of_some hfind]
  rfl

/-- A log record that can be written is kept as its encoding. -/
theorem emitLog_of_none {host : Host} {record : LogRecord} {encoded : Bytes}
    (hencode : record.encode host.settings.logCapacity = .ok encoded)
    (hfind : host.boundary.failures.find? host.settings.numbering.log = none) :
    host.emitLog record =
      (.ok (), { host with
        boundary := host.boundary.keepPayload host.settings.numbering.log encoded }) := by
  rw [emitLog, hencode]
  simp only [Bridge.emitLog]
  rw [Bridge.notify_of_none hfind]
  rfl

/-- The session notes a self-destruction whatever the boundary says. -/
theorem selfDestruct_of_some {host : Host} {code : Int}
    (hfind : host.boundary.failures.find? host.settings.numbering.selfDestruct = some code)
    (beneficiary : Address) :
    host.selfDestruct beneficiary =
      (((host.bridge.check .selfDestruct code).mapError .status).map
          fun _ => (host.session.markDestructed beneficiary).1,
        { host with session := (host.session.markDestructed beneficiary).2 }) := by
  simp only [selfDestruct, Bridge.emitSelfDestruct]
  rw [Bridge.notify_of_some hfind]
  rfl

/-- A self-destruction that the boundary takes is kept as the beneficiary, and told if it is the
first. -/
theorem selfDestruct_of_none {host : Host}
    (hfind : host.boundary.failures.find? host.settings.numbering.selfDestruct = none)
    (beneficiary : Address) :
    host.selfDestruct beneficiary =
      (.ok (host.session.markDestructed beneficiary).1,
        { host with
          session := (host.session.markDestructed beneficiary).2
          boundary := host.boundary.keepPayload host.settings.numbering.selfDestruct
            beneficiary.bytes }) := by
  simp only [selfDestruct, Bridge.emitSelfDestruct]
  rw [Bridge.notify_of_none hfind]
  rfl

/-- An execution that fails hands nothing over. -/
theorem finish_false (host : Host) (output : Bytes) :
    host.finish false output = (.ok host.session.outcome, host.boundary) := rfl

/-- A success whose number is set to fail changes nothing at the boundary. -/
theorem finish_of_some {host : Host} {code : Int}
    (hfind : host.boundary.failures.find? host.settings.numbering.ret = some code)
    (output : Bytes) :
    host.finish true output =
      (((host.bridge.check .ret code).mapError .status).map fun _ => host.session.outcome,
        host.boundary) := by
  simp only [finish, Bridge.emitReturn]
  rw [Bridge.notify_of_some hfind]
  rfl

/-- A success leaves its output with the boundary and ends with the outcome of the session. -/
theorem finish_of_none {host : Host}
    (hfind : host.boundary.failures.find? host.settings.numbering.ret = none) (output : Bytes) :
    host.finish true output =
      (.ok host.session.outcome,
        host.boundary.keepPayload host.settings.numbering.ret output) := by
  simp only [finish, Bridge.emitReturn]
  rw [Bridge.notify_of_none hfind]
  rfl

/-! ## Nested calls -/

/-- A message that cannot be written does not reach the boundary. -/
theorem call_of_error {host : Host} {message : CallMessage} {error : WireError}
    (hencode : message.encode host.settings.callCapacity = .error error) :
    host.call message = (.error (.wire error), host) := by
  simp only [call, hencode]

/-- A message that fits reaches no boundary that refuses it. -/
theorem call_of_some {host : Host} {message : CallMessage} {encoded : Bytes}
    (hencode : message.encode host.settings.callCapacity = .ok encoded) {code : Int}
    (hfind : host.boundary.failures.find? host.settings.numbering.call = some code)
    (hcode : code ≠ 0) :
    host.call message =
      (.error (.status ⟨.call, host.settings.numbering.call, code⟩), host) := by
  have hexchange := Boundary.exchange_of_some hfind
    (List.replicate host.settings.callCapacity 0) encoded
  simp only [call, hencode, Bridge.call, bridge, Numbering.number, hexchange,
    Bridge.check_of_ne hcode]

/-- A message that fits is kept by a boundary that does not refuse it, and its answer is read. -/
theorem call_of_none {host : Host} {message : CallMessage} {encoded : Bytes}
    (hencode : message.encode host.settings.callCapacity = .ok encoded)
    (hfind : host.boundary.failures.find? host.settings.numbering.call = none) :
    host.call message =
      (host.settings.readAnswer message.gas (host.boundary.answer encoded),
        { host with boundary := host.boundary.keepMessage encoded }) := by
  have hexchange := Boundary.exchange_of_none hfind
    (List.replicate host.settings.callCapacity 0) encoded
  rw [List.length_replicate] at hexchange
  simp only [call, hencode, Bridge.call, bridge, Numbering.number, hexchange,
    Settings.readAnswer, Settings.resultBuffer]
  -- The answer lies over the front of a buffer of zeros.
  by_cases hlength : (host.boundary.answer encoded).length ≤ host.settings.callCapacity
  · simp only [if_pos hlength, Bridge.check_zero, Boundary.overwrite, List.drop_replicate]
  · have hcode : Boundary.answerTooLong ≠ 0 := by decide
    simp only [if_neg hlength, Bridge.check_of_ne hcode, Numbering.number]

end Host

end CallGate
