import CallGate.Proofs.Host.Effect

/-!
# The traffic of a run

What a boundary has kept after a run is read off the callbacks of the run and their answers: a
payload for each log record and each self-destruction that succeeded, and a message for each
nested call whose message fits, whatever became of its answer. No other callback, and no failure,
leaves a trace.

* `Host.payload?_step`: an answer tells which payload the boundary took.
* `Host.run_boundary`: a run keeps the payloads and the messages of its callbacks, in order.
* `Host.serve_traffic`: the traffic of an execution over a boundary without traffic.
-/

namespace CallGate

namespace Boundary

/-- What the boundary keeps does not change which statuses are set. -/
theorem FailsWithErrors.keep {boundary : Boundary} (h : boundary.FailsWithErrors)
    (payloads : List (Nat × Bytes)) (messages : List Bytes) :
    (boundary.keep payloads messages).FailsWithErrors := h

end Boundary

namespace Host

/-- The log record that a callback handed over, if its answer says so. -/
def Callback.logged? : Callback → Reply → Option LogRecord
  | .log record, .done => some record
  | _, _ => none

/-- The payload that a callback handed over, if its answer says so, with its number. -/
def Callback.payload? (numbering : Numbering) : Callback → Reply → Option (Nat × Bytes)
  | .log record, .done => some (numbering.log, record.encoding)
  | .selfDestruct beneficiary, .first _ => some (numbering.selfDestruct, beneficiary.bytes)
  | _, _ => none

/-- What a nested call makes of an answer of the boundary. -/
def Callback.replyTo? (settings : Settings) (answer : Bytes) : Callback → Option Reply
  | .call message => some (.ofExcept .result (settings.readAnswer message.gas answer))
  | .callOrFailure message =>
    match settings.readAnswer message.gas answer with
    | .ok result => some (.result result)
    | .error _ => some (.result (.failure 0))
  | _ => none

/-! ## One callback -/

/-- Where all statuses that are set are errors, the answer to a log record tells whether it was
taken. -/
theorem payload?_log {host : Host} (hcodes : host.boundary.FailsWithErrors) (record : LogRecord) :
    Callback.payload? host.settings.numbering (.log record) (host.step (.log record)).1 =
      host.taken? (.log record) := by
  rw [step]
  -- A record fails before the boundary, at the boundary, or not at all.
  cases hencode : record.encode host.settings.logCapacity with
  | error error =>
    rw [emitLog_of_error hencode, taken?_log_of_error hencode]
    rfl
  | ok encoded =>
    rw [taken?]
    cases hfind : host.boundary.failures.find? host.settings.numbering.log with
    | some code =>
      rw [emitLog_of_some hencode hfind, Bridge.check_of_ne (hcodes.ne_zero hfind)]
      rfl
    | none =>
      obtain ⟨-, -, -, rfl⟩ := (record.encode_eq_ok_iff _ _).1 hencode
      rw [emitLog_of_none hencode hfind, hencode]
      rfl

/-- A self-destruction that was accepted is one that the boundary took. -/
theorem payload?_selfDestruct {host : Host} (hcodes : host.boundary.FailsWithErrors)
    (beneficiary : Address) :
    Callback.payload? host.settings.numbering (.selfDestruct beneficiary)
        (host.step (.selfDestruct beneficiary)).1 =
      host.taken? (.selfDestruct beneficiary) := by
  rw [step, taken?]
  cases hfind : host.boundary.failures.find? host.settings.numbering.selfDestruct with
  | some code =>
    rw [selfDestruct_of_some hfind, Bridge.check_of_ne (hcodes.ne_zero hfind)]
    rfl
  | none =>
    rw [selfDestruct_of_none hfind]
    rfl

/-- Where all statuses that are set are errors, an answer tells what the boundary took. -/
theorem payload?_step {host : Host} (hcodes : host.boundary.FailsWithErrors)
    (callback : Callback) :
    callback.payload? host.settings.numbering (host.step callback).1 = host.taken? callback := by
  cases callback with
  | log record => exact payload?_log hcodes record
  | selfDestruct beneficiary => exact payload?_selfDestruct hcodes beneficiary
  | _ => rfl

/-- What a nested call leaves at the boundary, and what it makes of the answer if there is one. -/
theorem call_boundary {host : Host} (hcodes : host.boundary.FailsWithErrors)
    (message : CallMessage) :
    (∃ error, host.recorded? (.call message) = none ∧
      host.call message = (.error error, host)) ∨
    (∃ encoded, host.recorded? (.call message) = some encoded ∧
      host.call message =
        (host.settings.readAnswer message.gas (host.boundary.answer encoded),
          { host with boundary := host.boundary.keepMessage encoded })) := by
  cases hencode : message.encode host.settings.callCapacity with
  | error error =>
    refine .inl ⟨.wire error, ?_, call_of_error hencode⟩
    rw [recorded?_call, hencode]
    split <;> rfl
  | ok encoded =>
    cases hfind : host.boundary.failures.find? host.settings.numbering.call with
    | some code =>
      refine .inl ⟨_, ?_, call_of_some hencode hfind (hcodes.ne_zero hfind)⟩
      rw [recorded?_call, hfind]
    | none =>
      refine .inr ⟨encoded, ?_, call_of_none hencode hfind⟩
      rw [recorded?_call, hfind, hencode]
      rfl

/-- A callback whose message is kept answers what it makes of the answer of the boundary. -/
theorem step_eq_replyTo? {host : Host} (hcodes : host.boundary.FailsWithErrors)
    {callback : Callback} {encoded : Bytes} (hmessage : host.recorded? callback = some encoded) :
    some (host.step callback).1 =
      callback.replyTo? host.settings (host.boundary.answer encoded) := by
  -- Only the two nested calls have messages.
  have hloud : callback.message? ≠ none := by
    intro h
    rw [host.recorded?_of_message?_eq_none callback h] at hmessage
    cases hmessage
  cases callback with
  | call message =>
    rcases call_boundary hcodes message with ⟨error, hnone, hcall⟩ | ⟨encoded', hsome, hcall⟩
    · rw [hnone] at hmessage
      cases hmessage
    · cases hsome.symm.trans hmessage
      rw [step, hcall]
      rfl
  | callOrFailure message =>
    rcases call_boundary hcodes message with ⟨error, hnone, hcall⟩ | ⟨encoded', hsome, hcall⟩
    · cases hnone.symm.trans hmessage
    · cases hsome.symm.trans hmessage
      rw [step, callOrFailure, hcall, Callback.replyTo?]
      cases host.settings.readAnswer message.gas (host.boundary.answer encoded) <;> rfl
  | _ => exact absurd rfl hloud

/-- A record was handed over if it was logged and the host had no objection. -/
theorem Callback.logged?_eq_some_iff (callback : Callback) (reply : Reply) (record : LogRecord) :
    callback.logged? reply = some record ↔ callback = .log record ∧ reply = .done := by
  constructor
  · intro h
    unfold logged? at h
    split at h
    · cases h
      exact ⟨rfl, rfl⟩
    · cases h
  · rintro ⟨rfl, rfl⟩
    rfl

/-- A log record that was handed over was written. -/
theorem encode_of_logged? {host : Host} {callback : Callback} {record : LogRecord}
    (h : callback.logged? (host.step callback).1 = some record) :
    record.encode host.settings.logCapacity = .ok record.encoding := by
  obtain ⟨rfl, hreply⟩ := (callback.logged?_eq_some_iff _ _).1 h
  cases hencode : record.encode host.settings.logCapacity with
  | error error =>
    rw [step, emitLog_of_error hencode] at hreply
    cases hreply
  | ok encoded =>
    obtain ⟨-, -, -, rfl⟩ := (record.encode_eq_ok_iff _ _).1 hencode
    rfl

/-! ## Runs -/

/-- The log records that a run handed over, oldest first. -/
def logged (callbacks : List Callback) (replies : List Reply) : List LogRecord :=
  (callbacks.zip replies).filterMap fun entry => entry.1.logged? entry.2

/-- The payloads that a run handed over with their numbers, oldest first. -/
def payloads (numbering : Numbering) (callbacks : List Callback) (replies : List Reply) :
    List (Nat × Bytes) :=
  (callbacks.zip replies).filterMap fun entry => entry.1.payload? numbering entry.2

/-- The payload of the first callback comes before those of the others. -/
theorem payloads_cons (numbering : Numbering) (callback : Callback) (callbacks : List Callback)
    (reply : Reply) (replies : List Reply) :
    payloads numbering (callback :: callbacks) (reply :: replies) =
      (callback.payload? numbering reply).toList ++ payloads numbering callbacks replies := by
  rw [payloads, List.zip_cons_cons, List.filterMap_cons, payloads]
  cases callback.payload? numbering reply <;> rfl

/-- The statuses that are set stay set. -/
theorem failsWithErrors_step {host : Host} (hcodes : host.boundary.FailsWithErrors)
    (callback : Callback) : (host.step callback).2.boundary.FailsWithErrors := by
  rw [step_host]
  exact hcodes.keep _ _

/-- The payloads that a run handed over are those that the boundary took. -/
theorem payloads_run {host : Host} (hcodes : host.boundary.FailsWithErrors)
    (callbacks : List Callback) :
    payloads host.settings.numbering callbacks (host.run callbacks).1 =
      callbacks.filterMap host.taken? := by
  induction callbacks generalizing host with
  | nil => rfl
  | cons callback rest ih =>
    have hrest := ih (failsWithErrors_step hcodes callback)
    rw [step_taken?, step_settings] at hrest
    rw [run_cons, payloads_cons, payload?_step hcodes, hrest, List.filterMap_eq_flatMap_toList,
      List.filterMap_eq_flatMap_toList, List.flatMap_cons]

/-- A run keeps what its callbacks hand over, in order. -/
theorem run_boundary {host : Host} (hcodes : host.boundary.FailsWithErrors)
    (callbacks : List Callback) :
    (host.run callbacks).2.settings = host.settings ∧
      (host.run callbacks).2.boundary = host.boundary.keep
        (payloads host.settings.numbering callbacks (host.run callbacks).1)
        (callbacks.filterMap host.recorded?) := by
  rw [payloads_run hcodes, run_host]
  exact ⟨rfl, rfl⟩

/-- The messages of a run are kept in the order of its calls, and each call makes its answer of what
the responder answers to its message after the messages before it. -/
theorem run_replyTo? {host : Host} (hcodes : host.boundary.FailsWithErrors)
    {callbacks : List Callback} {earlier later : List Bytes} {encoded : Bytes}
    (h : callbacks.filterMap host.recorded? = earlier ++ encoded :: later) :
    ∃ before callback after, callbacks = before ++ callback :: after ∧
      before.filterMap host.recorded? = earlier ∧ host.recorded? callback = some encoded ∧
      (host.run callbacks).1[before.length]? = callback.replyTo? host.settings
        (host.boundary.responder.elim [] fun responder =>
          (responder.after earlier).answer encoded) := by
  obtain ⟨front, back, rfl, hfront, hback⟩ := List.filterMap_eq_append_iff.1 h
  obtain ⟨gap, callback, after, rfl, hgap, hencoded, -⟩ := List.filterMap_eq_cons_iff.1 hback
  -- The callbacks of the gap keep no messages.
  have hbefore : (front ++ gap).filterMap host.recorded? = earlier := by
    rw [List.filterMap_append, List.filterMap_eq_nil_iff.2 hgap, List.append_nil, hfront]
  refine ⟨front ++ gap, callback, after, (List.append_assoc ..).symm, hbefore, hencoded, ?_⟩
  obtain ⟨hsettings, hboundary⟩ := run_boundary hcodes (front ++ gap)
  rw [hbefore] at hboundary
  have hencoded' : (host.run (front ++ gap)).2.recorded? callback = some encoded := by
    rw [recorded?_congr hsettings (by rw [hboundary, Boundary.keep]), hencoded]
  have hreply := step_eq_replyTo? (hboundary ▸ hcodes.keep _ _) hencoded'
  rw [hsettings, hboundary, Boundary.answer_keep] at hreply
  rw [← List.append_assoc, getElem?_run]
  exact hreply

/-- A record that was handed over is that of the first callback or of a later one. -/
theorem mem_logged_cons {callback : Callback} {callbacks : List Callback} {reply : Reply}
    {replies : List Reply} {record : LogRecord}
    (h : record ∈ logged (callback :: callbacks) (reply :: replies)) :
    callback.logged? reply = some record ∨ record ∈ logged callbacks replies := by
  rw [logged, List.zip_cons_cons, List.mem_filterMap] at h
  obtain ⟨entry, hmem, hlogged⟩ := h
  rcases List.mem_cons.1 hmem with rfl | hmem
  · exact .inl hlogged
  · exact .inr (List.mem_filterMap.2 ⟨entry, hmem, hlogged⟩)

/-- A log record that a run handed over was written. -/
theorem encode_of_mem_logged {host : Host} (hcodes : host.boundary.FailsWithErrors)
    {callbacks : List Callback} {record : LogRecord}
    (h : record ∈ logged callbacks (host.run callbacks).1) :
    record.encode host.settings.logCapacity = .ok record.encoding := by
  induction callbacks generalizing host with
  | nil => cases h
  | cons callback rest ih =>
    rw [run_cons] at h
    rcases mem_logged_cons h with hlogged | hrest
    · exact encode_of_logged? hlogged
    · rw [← host.step_settings callback]
      exact ih (failsWithErrors_step hcodes callback) hrest

/-! ## Executions -/

/-- What comes of an execution. -/
structure Service where
  /-- The answers to the callbacks. -/
  replies : List Reply
  /-- The outcome, if the execution was ended. -/
  outcome : Option (Except HostError Outcome)
  /-- The boundary with its traffic. -/
  boundary : Boundary

/-- Serve a sequence of callbacks, and end the execution if there is an ending. -/
def serve (host : Host) (callbacks : List Callback) (ending : Option (Bool × Bytes)) : Service :=
  let (replies, host) := host.run callbacks
  match ending with
  | none => ⟨replies, none, host.boundary⟩
  | some (success, output) =>
    let (outcome, boundary) := host.finish success output
    ⟨replies, some outcome, boundary⟩

/-- The payload that an ending handed over, if its outcome says so, with its number. -/
def farewell? (numbering : Numbering) :
    Option (Bool × Bytes) → Option (Except HostError Outcome) → Option (Nat × Bytes)
  | some (true, output), some (.ok _) => some (numbering.ret, output)
  | _, _ => none

/-- An ending keeps its output if it succeeds. -/
theorem finish_boundary {host : Host} (hcodes : host.boundary.FailsWithErrors) (success : Bool)
    (output : Bytes) :
    (host.finish success output).2 = host.boundary.keep
      (farewell? host.settings.numbering (some (success, output))
        (some (host.finish success output).1)).toList [] := by
  cases success with
  | false =>
    rw [finish_false]
    exact host.boundary.keep_nil.symm
  | true =>
    cases hfind : host.boundary.failures.find? host.settings.numbering.ret with
    | some code =>
      rw [finish_of_some hfind, Bridge.check_of_ne (hcodes.ne_zero hfind)]
      exact host.boundary.keep_nil.symm
    | none =>
      rw [finish_of_none hfind]
      exact host.boundary.keepPayload_eq_keep _ _

/-- The callbacks are answered before the execution ends. -/
theorem serve_replies (host : Host) (callbacks : List Callback) (ending : Option (Bool × Bytes)) :
    (host.serve callbacks ending).replies = (host.run callbacks).1 := by
  rw [serve]
  cases ending <;> rfl

/-- After an execution the boundary holds the payloads of the run, the last payload and the messages
of the run, in their order. -/
theorem serve_boundary {host : Host} (hcodes : host.boundary.FailsWithErrors)
    (callbacks : List Callback) (ending : Option (Bool × Bytes)) :
    (host.serve callbacks ending).boundary = host.boundary.keep
      (payloads host.settings.numbering callbacks (host.run callbacks).1 ++
        (farewell? host.settings.numbering ending (host.serve callbacks ending).outcome).toList)
      (callbacks.filterMap host.recorded?) := by
  obtain ⟨hsettings, hboundary⟩ := run_boundary hcodes callbacks
  cases ending with
  | none =>
    have hquiet : farewell? host.settings.numbering none (host.serve callbacks none).outcome =
      none := rfl
    rw [hquiet, Option.toList_none, List.append_nil]
    exact hboundary
  | some ending =>
    obtain ⟨success, output⟩ := ending
    have hfinish := finish_boundary (hboundary ▸ hcodes.keep _ _) success output
    rw [hsettings, hboundary, Boundary.keep_keep, List.append_nil] at hfinish
    exact hfinish

/-! ## Log records read back -/

/-- Of what a callback hands over, only a log record goes under the number of logs. -/
theorem Callback.payload?_filter_log {numbering : Numbering}
    (hne : numbering.selfDestruct ≠ numbering.log) (callback : Callback) (reply : Reply) :
    ((callback.payload? numbering reply).filter fun entry => entry.1 == numbering.log).map
        Prod.snd =
      (callback.logged? reply).map LogRecord.encoding := by
  unfold payload?
  split
  · rw [Option.filter_some, if_pos (by exact beq_self_eq_true numbering.log)]
    rfl
  · rw [Option.filter_some, if_neg (by simpa using hne)]
    rfl
  · next hlog _ =>
    have hnone : callback.logged? reply = none := by
      unfold logged?
      split
      · exact absurd rfl (hlog _ rfl)
      · rfl
    rw [hnone]
    rfl

/-- The last payload is no log record if the two have different numbers. -/
theorem farewell?_filter_log {numbering : Numbering} (hne : numbering.ret ≠ numbering.log)
    (ending : Option (Bool × Bytes)) (outcome : Option (Except HostError Outcome)) :
    (farewell? numbering ending outcome).toList.filter (fun entry => entry.1 == numbering.log) =
      [] := by
  unfold farewell?
  split
  · exact List.filter_cons_of_neg (by simpa using hne)
  · rfl

/-- Where all numbers differ, log records have one of their own. -/
theorem ne_log_of_nodup {numbering : Numbering} (h : numbering.numbers.Nodup) :
    numbering.ret ≠ numbering.log ∧ numbering.selfDestruct ≠ numbering.log := by
  simp only [Numbering.numbers, Syscall.all, List.map, Numbering.number, List.nodup_cons,
    List.mem_cons, not_or] at h
  exact ⟨h.1.1, fun heq => h.2.1.1 heq.symm⟩

/-- With distinct numbers, what was handed over under the number of logs are the log records. -/
theorem sentTo_log {boundary : Boundary} {numbering : Numbering}
    (hdistinct : numbering.numbers.Nodup) {callbacks : List Callback} {replies : List Reply}
    {ending : Option (Bool × Bytes)} {outcome : Option (Except HostError Outcome)}
    (hsent : boundary.sent = payloads numbering callbacks replies ++
      (farewell? numbering ending outcome).toList) :
    boundary.sentTo numbering.log = (logged callbacks replies).map LogRecord.encoding := by
  obtain ⟨hret, hselfDestruct⟩ := ne_log_of_nodup hdistinct
  rw [Boundary.sentTo, hsent, List.filter_append, farewell?_filter_log hret, List.append_nil,
    payloads, logged, List.filter_filterMap, List.map_filterMap, List.map_filterMap]
  exact congrArg (List.filterMap · _) (funext fun entry =>
    entry.1.payload?_filter_log hselfDestruct entry.2)

/-- Log records that were written are read back. -/
theorem map_decode_encoding {records : List LogRecord} {capacity : Nat}
    (h : ∀ record ∈ records, record.encode capacity = .ok record.encoding) :
    (records.map LogRecord.encoding).map LogRecord.decode = records.map .ok := by
  rw [List.map_map]
  refine List.map_congr_left fun record hmem => ?_
  obtain ⟨hdata, htopics, -, -⟩ := (record.encode_eq_ok_iff _ _).1 (h record hmem)
  exact LogRecord.decode_encoding hdata htopics

/-- The traffic of an execution over a boundary without traffic whose set statuses are errors.

* The boundary has taken, in order, the log records and beneficiaries of the callbacks that
  succeeded, each under its number, and the output of an ending that succeeded. Every such log
  record could be written.
* It has kept, in order, the messages of the nested calls that could be written, unless the number
  of calls is set to fail. The responder was asked these messages, each of them once and in this
  order, and each such call makes its reply of what the responder answers to its message after it
  was asked the messages before it.
* With distinct numbers, what was taken under the number of logs reads as the log records that
  were handed over. -/
theorem serve_traffic {host : Host} (hsent : host.boundary.sent = [])
    (hmessages : host.boundary.messages = []) (hcodes : host.boundary.FailsWithErrors)
    (callbacks : List Callback) (ending : Option (Bool × Bytes)) :
    let numbering := host.settings.numbering
    let service := host.serve callbacks ending
    let records := logged callbacks service.replies
    service.replies.length = callbacks.length ∧
    (∀ record ∈ records, record.encode host.settings.logCapacity = .ok record.encoding) ∧
    service.boundary.sent = payloads numbering callbacks service.replies ++
      (farewell? numbering ending service.outcome).toList ∧
    service.boundary.messages = callbacks.filterMap host.recorded? ∧
    service.boundary.responder = host.boundary.responder.map (fun responder =>
      responder.after service.boundary.messages) ∧
    (∀ earlier encoded later, service.boundary.messages = earlier ++ encoded :: later →
      ∃ before callback after, callbacks = before ++ callback :: after ∧
        before.filterMap host.recorded? = earlier ∧ host.recorded? callback = some encoded ∧
        service.replies[before.length]? = callback.replyTo? host.settings
          (host.boundary.responder.elim [] fun responder =>
            (responder.after earlier).answer encoded)) ∧
    (numbering.numbers.Nodup →
      (service.boundary.sentTo numbering.log).map LogRecord.decode = records.map .ok) := by
  intro numbering service records
  -- The ending adds at most a payload to the traffic of the run.
  have hreplies : service.replies = (host.run callbacks).1 := serve_replies host callbacks ending
  have hboundary := serve_boundary hcodes callbacks ending
  rw [← hreplies] at hboundary
  have hsent' : service.boundary.sent = payloads numbering callbacks service.replies ++
      (farewell? numbering ending service.outcome).toList := by
    rw [hboundary, Boundary.keep, hsent]
    rfl
  have hmessages' : service.boundary.messages = callbacks.filterMap host.recorded? := by
    rw [hboundary, Boundary.keep, hmessages, List.nil_append]
  have hrecords : ∀ record ∈ records,
      record.encode host.settings.logCapacity = .ok record.encoding := by
    intro record hmem
    have hmem' : record ∈ logged callbacks (host.run callbacks).1 := by
      rwa [← hreplies]
    exact encode_of_mem_logged hcodes hmem'
  refine ⟨hreplies ▸ length_run host callbacks, hrecords, hsent', hmessages', ?_, ?_, ?_⟩
  · rw [hmessages', hboundary, Boundary.keep]
  · intro earlier encoded later h
    rw [hmessages'] at h
    obtain ⟨before, callback, after, hsplit, hearlier, hencoded, hreply⟩ :=
      run_replyTo? hcodes h
    refine ⟨before, callback, after, hsplit, hearlier, hencoded, ?_⟩
    rw [hreplies, hreply]
  · intro hdistinct
    rw [sentTo_log hdistinct hsent', map_decode_encoding hrecords]

/-- A responder that counts its messages answers two nested calls with one and two. Between them the
number of self-destructions is set to fail, so their notice is refused. -/
theorem serve_traffic_counted :
    let counting (asked : UInt8) : Responder :=
      { Memory := UInt8, memory := asked, respond := fun n _ => ([1, 0, 0, 0, n + 1], n + 1) }
    let boundary : Boundary :=
      Boundary.failWith { responder := some (counting 0) } Syscall.selfDestruct.defaultNumber 5
    let host : Host := ⟨boundary, { origin := .zero }, .blank, {}⟩
    let record : LogRecord := ⟨[1, 2, 3], []⟩
    let encoded := (default : CallMessage).encoding
    let callbacks : List Callback :=
      [.log record, .call default, .selfDestruct .zero, .call default]
    let ending : Option (Bool × Bytes) := some (true, [9])
    host.boundary.sent = [] ∧ host.boundary.messages = [] ∧ host.boundary.FailsWithErrors ∧
      host.settings.numbering.numbers.Nodup ∧
      (host.serve callbacks ending).boundary.sent = [(3076, record.encoding), (3075, [9])] ∧
      (host.serve callbacks ending).boundary.messages = [encoded, encoded] ∧
      (host.serve callbacks ending).boundary.responder = some (counting 2) ∧
      (host.serve callbacks ending).replies[3]? =
        Callback.replyTo? host.settings [1, 0, 0, 0, 2] (.call default) ∧
      ((host.serve callbacks ending).boundary.sentTo host.settings.numbering.log).map
        LogRecord.decode = [.ok record] := by
  intro counting boundary host record encoded callbacks ending
  have hsent : host.boundary.sent = [] := rfl
  have hmessages : host.boundary.messages = [] := rfl
  have hcodes : host.boundary.FailsWithErrors := by decide
  have hdistinct : host.settings.numbering.numbers.Nodup := by decide
  obtain ⟨-, -, hpayloads, hcalls, hasked, hanswers, hdecode⟩ :=
    serve_traffic hsent hmessages hcodes callbacks ending
  have hlogged : logged callbacks (host.serve callbacks ending).replies = [record] := by
    decide +kernel
  have hkept : callbacks.filterMap host.recorded? = [encoded, encoded] := by decide +kernel
  have hmessages' : (host.serve callbacks ending).boundary.messages = [encoded, encoded] := by
    rw [hcalls, hkept]
  rw [hlogged] at hdecode
  refine ⟨hsent, hmessages, hcodes, hdistinct, ?_, hmessages', ?_, ?_, hdecode hdistinct⟩
  · rw [hpayloads]
    decide +kernel
  · rw [hasked, hmessages']
    rfl
  · obtain ⟨before, callback, after, hsplit, hearlier, hencoded, hreply⟩ :=
      hanswers [encoded] encoded [] hmessages'
    -- Only at the last place of the run one message was kept before and one is kept.
    have honly : ∀ place < 4, (callbacks.take place).filterMap host.recorded? = [encoded] →
        callbacks[place]?.bind host.recorded? = some encoded → place = 3 := by
      decide +kernel
    have hcallback : callbacks[before.length]? = some callback := by
      rw [hsplit, List.getElem?_append_right (Nat.le_refl _), Nat.sub_self,
        List.getElem?_cons_zero]
    have hplace : before.length = 3 := by
      apply honly
      · exact (List.getElem?_eq_some_iff.1 hcallback).1
      · rw [hsplit, List.take_left, hearlier]
      · rw [hcallback, Option.bind_some, hencoded]
    rw [hplace] at hcallback hreply
    cases hcallback
    exact hreply

end Host

end CallGate
