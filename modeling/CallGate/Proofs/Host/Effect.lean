import Mathlib.Data.List.Basic
import CallGate.Proofs.Host.Crossing
import CallGate.Proofs.Run

/-!
# What one callback changes

A callback changes a host in two places only. The session takes writes, noted values and the first
self-destruction. The boundary takes log records and beneficiaries as payloads and nested calls as
messages, unless their numbers are set to fail. Neither change looks at the other place: what the
session takes does not depend on the boundary, and what the boundary takes does not depend on the
session.

* `Host.step_host`: the host after a callback.
* `Host.run_host`: the host after a run.
* `Host.selfDestruct_reply`, `Host.emitLog_reply`, `Host.finish_reply`: what an operation answers,
  by what the boundary says to its payload.
-/

namespace CallGate

/-- A self-destruction leaves its beneficiary in the session if it is the first. -/
theorem Session.markDestructed_eq (session : Session) (beneficiary : Address) :
    (session.markDestructed beneficiary).2 =
      { session with beneficiary := session.beneficiary.or (some beneficiary) } := by
  obtain ⟨origin, storage, first⟩ := session
  cases first <;> rfl

/-- A self-destruction leaves the storage as it is. -/
theorem Session.markDestructed_storage (session : Session) (beneficiary : Address) :
    (session.markDestructed beneficiary).2.storage = session.storage := by
  rw [markDestructed_eq]

/-- An empty answer leaves the result buffer all zero. -/
theorem Settings.readAnswer_nil (settings : Settings) (requestGas : UInt64) :
    settings.readAnswer requestGas [] =
      (CallResult.decode (List.replicate settings.callCapacity 0) requestGas
        settings.gasAccounting).mapError .wire :=
  if_pos (Nat.zero_le _)

namespace Host

/-- The message of a nested call. -/
def Callback.message? : Callback → Option CallMessage
  | .call message => some message
  | .callOrFailure message => some message
  | _ => none

/-- The beneficiary of a self-destruction. -/
def Callback.beneficiary? : Callback → Option Address
  | .selfDestruct beneficiary => some beneficiary
  | .markDestructed beneficiary => some beneficiary
  | _ => none

/-- The message that the boundary keeps of a callback: that of a nested call whose message fits,
unless the number of calls is set to fail. -/
def recorded? (host : Host) (callback : Callback) : Option Bytes :=
  match host.boundary.failures.find? host.settings.numbering.call with
  | some _ => none
  | none => callback.message?.bind fun message =>
    (message.encode host.settings.callCapacity).toOption

/-- The payload that the boundary keeps of a callback, with its number: a log record that fits or a
beneficiary, unless its number is set to fail. -/
def taken? (host : Host) : Callback → Option (Nat × Bytes)
  | .log record =>
    match host.boundary.failures.find? host.settings.numbering.log with
    | some _ => none
    | none => (record.encode host.settings.logCapacity).toOption.map fun encoded =>
      (host.settings.numbering.log, encoded)
  | .selfDestruct beneficiary =>
    match host.boundary.failures.find? host.settings.numbering.selfDestruct with
    | some _ => none
    | none => some (host.settings.numbering.selfDestruct, beneficiary.bytes)
  | _ => none

/-- What the boundary says to a payload of an operation. -/
def verdict (host : Host) (syscall : Syscall) : Except HostError Unit :=
  (host.bridge.check syscall
    ((host.boundary.failures.find? (host.settings.numbering.number syscall)).getD 0)).mapError
      .status

/-- The session after a callback. -/
def sessionAfter (host : Host) : Callback → Session
  | .write key value =>
    if host.session.isDestructed && host.settings.strictDestruct then host.session
    else (host.session.write host.settings.statusPolicy key value).2
  | .observe key value => host.session.observe key value
  | .selfDestruct beneficiary => (host.session.markDestructed beneficiary).2
  | .markDestructed beneficiary => (host.session.markDestructed beneficiary).2
  | _ => host.session

/-! ## Answers of the boundary -/

/-- What was kept so far makes no difference to the verdict. -/
theorem verdict_congr {host host' : Host} (hsettings : host'.settings = host.settings)
    (hfailures : host'.boundary.failures = host.boundary.failures) :
    host'.verdict = host.verdict := by
  funext syscall
  simp only [verdict, Bridge.check, bridge, hsettings, hfailures]

/-- The verdict does not depend on what the payload is. -/
theorem verdict_eq (host : Host) (syscall : Syscall) (payload : Bytes) :
    host.verdict syscall = (host.bridge.notify syscall payload).1.mapError .status :=
  congrArg (Except.mapError HostError.status) (host.bridge.notify_status syscall payload).symm

/-- A log record that can be written has the verdict of the boundary as its answer. -/
theorem emitLog_reply (host : Host) (record : LogRecord) :
    (host.emitLog record).1 =
      match record.encode host.settings.logCapacity with
      | .error error => .error (.wire error)
      | .ok _ => host.verdict .log := by
  cases hencode : record.encode host.settings.logCapacity with
  | error error => rw [emitLog_of_error hencode]
  | ok encoded =>
    rw [emitLog, hencode, host.verdict_eq .log encoded]
    rfl

/-- A nested call answers what the answer of the boundary comes to, unless the message is too large
or the boundary refuses it. -/
theorem call_reply (host : Host) (message : CallMessage) :
    (host.call message).1 =
      match message.encode host.settings.callCapacity with
      | .error error => .error (.wire error)
      | .ok encoded =>
        match host.boundary.failures.find? host.settings.numbering.call with
        | some _ => (host.verdict .call).bind fun _ => host.settings.readAnswer message.gas []
        | none => host.settings.readAnswer message.gas (host.boundary.answer encoded) := by
  cases hencode : message.encode host.settings.callCapacity with
  | error error => rw [call_of_error hencode]
  | ok encoded =>
    cases hfind : host.boundary.failures.find? host.settings.numbering.call with
    | some code =>
      have hverdict : host.verdict .call = (host.bridge.check .call code).mapError .status := by
        simp only [verdict, Numbering.number, hfind, Option.getD_some]
      have hexchange := Boundary.exchange_of_some hfind
        (List.replicate host.settings.callCapacity 0) encoded
      simp only [call, hencode, Bridge.call, bridge, Numbering.number, hexchange, hverdict]
      by_cases hcode : code = 0
      · -- The status zero is no refusal, and nothing was put into the result buffer.
        simp only [hcode, Bridge.check_zero, Settings.readAnswer_nil]
        rfl
      · simp only [Bridge.check_of_ne hcode]
        rfl
    | none => simp only [call_of_none hencode hfind]

/-- What the boundary has taken so far makes no difference to a log record. -/
theorem emitLog_congr {host host' : Host} (hsettings : host'.settings = host.settings)
    (hfailures : host'.boundary.failures = host.boundary.failures) (record : LogRecord) :
    (host'.emitLog record).1 = (host.emitLog record).1 := by
  rw [emitLog_reply, emitLog_reply, verdict_congr hsettings hfailures, hsettings]

/-- What the boundary has taken so far makes a difference to a nested call by the answer alone. -/
theorem call_congr {host host' : Host} (hsettings : host'.settings = host.settings)
    (hfailures : host'.boundary.failures = host.boundary.failures)
    (hanswer : host'.boundary.answer = host.boundary.answer) (message : CallMessage) :
    (host'.call message).1 = (host.call message).1 := by
  rw [call_reply, call_reply, verdict_congr hsettings hfailures, hfailures, hanswer, hsettings]

/-- A self-destruction that the boundary accepts tells whether it is the first. -/
theorem selfDestruct_reply (host : Host) (beneficiary : Address) :
    (host.selfDestruct beneficiary).1 =
      (host.verdict .selfDestruct).map fun _ => (host.session.markDestructed beneficiary).1 := by
  rw [host.verdict_eq .selfDestruct beneficiary.bytes]
  rfl

/-- An execution that fails asks nothing of the boundary. -/
theorem finish_reply (host : Host) (success : Bool) (output : Bytes) :
    (host.finish success output).1 =
      (if success then host.verdict .ret else .ok ()).map fun _ => host.session.outcome := by
  cases success with
  | false => rfl
  | true =>
    rw [if_pos rfl, host.verdict_eq .ret output]
    rfl

/-! ## The host after a callback -/

/-- Nothing but the settings and the statuses that are set decides which messages are kept. -/
theorem recorded?_congr {host host' : Host} (hsettings : host'.settings = host.settings)
    (hfailures : host'.boundary.failures = host.boundary.failures) :
    host'.recorded? = host.recorded? := by
  funext callback
  rw [recorded?, recorded?, hsettings, hfailures]

/-- Nothing but the settings and the statuses that are set decides which payloads are kept. -/
theorem taken?_congr {host host' : Host} (hsettings : host'.settings = host.settings)
    (hfailures : host'.boundary.failures = host.boundary.failures) :
    host'.taken? = host.taken? := by
  funext callback
  cases callback <;> simp only [taken?, hsettings, hfailures]

theorem recorded?_call (host : Host) (message : CallMessage) :
    host.recorded? (.call message) =
      match host.boundary.failures.find? host.settings.numbering.call with
      | some _ => none
      | none => (message.encode host.settings.callCapacity).toOption := rfl

/-- A callback that makes no call has no message kept. -/
theorem recorded?_of_message?_eq_none (host : Host) (callback : Callback)
    (h : callback.message? = none) : host.recorded? callback = none := by
  rw [recorded?, h]
  split <;> rfl

/-- A log record that cannot be written is not taken, whatever the boundary would say. -/
theorem taken?_log_of_error {host : Host} {record : LogRecord} {error : WireError}
    (hencode : record.encode host.settings.logCapacity = .error error) :
    host.taken? (.log record) = none := by
  simp only [taken?, hencode]
  split <;> rfl

/-- A log record changes the boundary at most by its payload. -/
theorem emitLog_host (host : Host) (record : LogRecord) :
    (host.emitLog record).2 =
      { host with boundary := host.boundary.keep (host.taken? (.log record)).toList [] } := by
  cases hencode : record.encode host.settings.logCapacity with
  | error error =>
    rw [emitLog_of_error hencode, taken?_log_of_error hencode, Option.toList_none,
      Boundary.keep_nil]
  | ok encoded =>
    cases hfind : host.boundary.failures.find? host.settings.numbering.log with
    | some code =>
      simp only [emitLog_of_some hencode hfind, taken?, hfind, Option.toList_none,
        Boundary.keep_nil]
    | none =>
      simp only [emitLog_of_none hencode hfind, taken?, hfind, hencode,
        Boundary.keepPayload_eq_keep]
      rfl

/-- A self-destruction marks the session, whatever the boundary says, and is kept if that takes
it. -/
theorem selfDestruct_host (host : Host) (beneficiary : Address) :
    (host.selfDestruct beneficiary).2 =
      { host with
        session := (host.session.markDestructed beneficiary).2
        boundary := host.boundary.keep (host.taken? (.selfDestruct beneficiary)).toList [] } := by
  cases hfind : host.boundary.failures.find? host.settings.numbering.selfDestruct with
  | some code =>
    simp only [taken?, hfind]
    rw [selfDestruct_of_some hfind, Option.toList_none, Boundary.keep_nil]
  | none =>
    simp only [taken?, hfind]
    rw [selfDestruct_of_none hfind, Boundary.keepPayload_eq_keep]
    rfl

/-- A call that the boundary refuses leaves the host as it was, whatever the status says. -/
theorem call_host_of_some {host : Host} {message : CallMessage} {encoded : Bytes}
    (hencode : message.encode host.settings.callCapacity = .ok encoded) {code : Int}
    (hfind : host.boundary.failures.find? host.settings.numbering.call = some code) :
    (host.call message).2 = host := by
  have hexchange := Boundary.exchange_of_some hfind
    (List.replicate host.settings.callCapacity 0) encoded
  simp only [call, hencode, Bridge.call, bridge, Numbering.number, hexchange]
  split <;> rfl

/-- A nested call changes the boundary at most by its message. -/
theorem call_host (host : Host) (message : CallMessage) :
    (host.call message).2 =
      { host with boundary := host.boundary.keep [] (host.recorded? (.call message)).toList } := by
  cases hencode : message.encode host.settings.callCapacity with
  | error error =>
    -- The message is not kept, whatever the boundary would say.
    have hnone : host.recorded? (.call message) = none := by
      rw [recorded?_call, hencode]
      split <;> rfl
    rw [call_of_error hencode, hnone, Option.toList_none, Boundary.keep_nil]
  | ok encoded =>
    cases hfind : host.boundary.failures.find? host.settings.numbering.call with
    | some code =>
      rw [call_host_of_some hencode hfind, recorded?_call, hfind, Option.toList_none,
        Boundary.keep_nil]
    | none =>
      rw [call_of_none hencode hfind, recorded?_call, hfind, hencode, Boundary.keepMessage_eq_keep]
      rfl

/-- Any error of a nested call is taken for a failure without gas. -/
theorem callOrFailure_eq (host : Host) (message : CallMessage) :
    host.callOrFailure message =
      (match (host.call message).1 with
        | .ok result => result
        | .error _ => .failure 0, (host.call message).2) := by
  rw [callOrFailure]
  split
  · next h => rw [h]
  · next h => rw [h]

theorem callOrFailure_congr {host host' : Host} {message : CallMessage}
    (h : (host'.call message).1 = (host.call message).1) :
    (host'.callOrFailure message).1 = (host.callOrFailure message).1 := by
  rw [callOrFailure_eq, callOrFailure_eq, h]

/-- A callback changes the session and what the boundary has kept, and nothing else. -/
theorem step_host (host : Host) (callback : Callback) :
    (host.step callback).2 =
      { host with
        session := host.sessionAfter callback
        boundary := host.boundary.keep (host.taken? callback).toList
          (host.recorded? callback).toList } := by
  -- Only a nested call has a message kept.
  have hquiet (hmessage : callback.message? = none) : (host.recorded? callback).toList = [] := by
    rw [host.recorded?_of_message?_eq_none callback hmessage, Option.toList_none]
  cases callback with
  | write key value =>
    rw [hquiet rfl]
    simp only [taken?, Option.toList_none, Boundary.keep_nil, sessionAfter, step, writeSlot]
    split <;> rfl
  | selfDestruct beneficiary =>
    rw [hquiet rfl]
    exact host.selfDestruct_host beneficiary
  | log record =>
    rw [hquiet rfl]
    exact host.emitLog_host record
  | call message => exact host.call_host message
  | callOrFailure message =>
    show (host.callOrFailure message).2 = _
    rw [callOrFailure_eq]
    exact host.call_host message
  | _ =>
    rw [hquiet rfl]
    simp only [taken?, Option.toList_none, Boundary.keep_nil, sessionAfter]
    rfl

/-- No callback changes the settings. -/
theorem step_settings (host : Host) (callback : Callback) :
    (host.step callback).2.settings = host.settings := by
  rw [step_host]

/-- A callback changes nothing that decides what later ones hand over. -/
theorem step_taken? (host : Host) (callback : Callback) :
    (host.step callback).2.taken? = host.taken? := by
  rw [step_host]
  exact taken?_congr rfl rfl

/-- A callback changes nothing that decides which messages of later ones are kept. -/
theorem step_recorded? (host : Host) (callback : Callback) :
    (host.step callback).2.recorded? = host.recorded? := by
  rw [step_host]
  exact recorded?_congr rfl rfl

/-- Nothing but the settings and the session decides what becomes of the session. -/
theorem sessionAfter_congr {host host' : Host} (hsettings : host'.settings = host.settings)
    (hsession : host'.session = host.session) : host'.sessionAfter = host.sessionAfter := by
  funext callback
  cases callback <;> simp only [sessionAfter, hsettings, hsession]

/-- No callback changes what the session knows of the transaction. -/
theorem sessionAfter_origin (host : Host) (callback : Callback) :
    (host.sessionAfter callback).origin = host.session.origin := by
  cases callback with
  | write key value =>
    rw [sessionAfter]
    split <;> rfl
  | selfDestruct beneficiary | markDestructed beneficiary =>
    rw [sessionAfter, Session.markDestructed_eq]
  | _ => rfl

/-- The first self-destruction counts. -/
theorem sessionAfter_beneficiary (host : Host) (callback : Callback) :
    (host.sessionAfter callback).beneficiary =
      host.session.beneficiary.or callback.beneficiary? := by
  cases callback with
  | selfDestruct beneficiary | markDestructed beneficiary =>
    rw [sessionAfter, Session.markDestructed_eq]
    rfl
  | write key value =>
    -- A write destroys nothing, whether or not it is refused.
    refine Eq.trans ?_ Option.or_none.symm
    rw [sessionAfter]
    split <;> rfl
  | _ => exact Option.or_none.symm

/-! ## The host after a run -/

theorem isRun : IsRun Host.step Host.run :=
  ⟨fun _ => rfl, fun _ _ _ => rfl⟩

theorem run_cons (host : Host) (callback : Callback) (callbacks : List Callback) :
    host.run (callback :: callbacks) =
      ((host.step callback).1 :: ((host.step callback).2.run callbacks).1,
        ((host.step callback).2.run callbacks).2) := rfl

/-- The callbacks of a second run find the host as the first has left it. -/
theorem run_append (host : Host) (first second : List Callback) :
    host.run (first ++ second) =
      ((host.run first).1 ++ ((host.run first).2.run second).1,
        ((host.run first).2.run second).2) :=
  isRun.append host first second

/-- Every callback is answered. -/
theorem length_run (host : Host) (callbacks : List Callback) :
    (host.run callbacks).1.length = callbacks.length :=
  isRun.length host callbacks

/-- The answer to a callback of a run is that of the host after the callbacks before it. -/
theorem getElem?_run (host : Host) (before : List Callback) (callback : Callback)
    (after : List Callback) :
    (host.run (before ++ callback :: after)).1[before.length]? =
      some ((host.run before).2.step callback).1 :=
  isRun.getElem? host before callback after

/-- A run changes the session and what the boundary has kept, and nothing else. -/
theorem run_host (host : Host) (callbacks : List Callback) :
    (host.run callbacks).2 =
      { host with
        session := (host.run callbacks).2.session
        boundary := host.boundary.keep (callbacks.filterMap host.taken?)
          (callbacks.filterMap host.recorded?) } := by
  induction callbacks generalizing host with
  | nil =>
    simp only [run, List.filterMap_nil, Boundary.keep_nil]
  | cons callback rest ih =>
    -- The rest of the run keeps what it would have kept without the callback before it.
    rw [run_cons, ih, step_taken?, step_recorded?]
    simp only [step_host, Boundary.keep_keep, List.filterMap_eq_flatMap_toList, List.flatMap_cons]

end Host

end CallGate
