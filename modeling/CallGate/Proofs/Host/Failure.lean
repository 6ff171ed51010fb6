import CallGate.Proofs.Host.Effect
import CallGate.Proofs.Host.NestedCall

/-!
# Callbacks that fail

A callback that is answered with an error has done nothing, but for two things. A self-destruction
that the boundary refuses destroys all the same. A nested call whose answer cannot be used has
crossed the boundary, and its message is kept.

* `Host.step_eq_error_cases`: the callbacks that fail, each by its own gate.
* `Host.step_host_of_error`: the host after a callback that failed.
* `Host.recorded?_of_error`: which failures leave a message.
* `Host.step_error`: both, and the nested call that cannot fail.
-/

namespace CallGate

namespace Host

/-! ## Gates -/

/-- The boundary refuses an operation if a status that is an error is set for its number. -/
theorem of_verdict_eq_error {host : Host} {syscall : Syscall} {error : HostError}
    (h : host.verdict syscall = .error error) :
    ∃ code, host.boundary.failures.find? (host.settings.numbering.number syscall) = some code ∧
      error = .status ⟨syscall, host.settings.numbering.number syscall, code⟩ := by
  cases hfind : host.boundary.failures.find? (host.settings.numbering.number syscall) with
  | none =>
    rw [verdict, hfind] at h
    cases h
  | some code =>
    rw [verdict, hfind, Option.getD_some] at h
    by_cases hcode : code = 0
    · rw [hcode, Bridge.check_zero] at h
      cases h
    · rw [Bridge.check_of_ne hcode] at h
      cases h
      exact ⟨code, rfl, rfl⟩

/-- An answer that is an error comes of an error. -/
theorem Reply.of_ofExcept_eq_error {α : Type} {reply : α → Reply} {error : HostError}
    (hreply : ∀ answer, reply answer ≠ .error error) {result : Except HostError α}
    (h : Reply.ofExcept reply result = .error error) : result = .error error := by
  cases result with
  | error cause =>
    cases h
    rfl
  | ok answer => exact absurd h (hreply answer)

/-- A callback fails at its own gate: a write in a destructed session, a self-destruction at the
boundary, a nested call or a log record at the boundary or before it. -/
theorem step_eq_error_cases {host : Host} {callback : Callback} {error : HostError}
    (h : (host.step callback).1 = .error error) :
    (∃ key value, callback = .write key value ∧ error = .writeAfterDestruct key ∧
      (host.session.isDestructed && host.settings.strictDestruct) = true) ∨
    (∃ beneficiary, callback = .selfDestruct beneficiary ∧
      host.verdict .selfDestruct = .error error) ∨
    (∃ message, callback = .call message ∧ (host.call message).1 = .error error) ∨
    (∃ record, callback = .log record ∧ (host.emitLog record).1 = .error error) := by
  cases callback with
  | write key value =>
    left
    have hresult : (host.writeSlot key value).1 = .error error :=
      Reply.of_ofExcept_eq_error (fun _ => Reply.noConfusion) h
    rw [writeSlot] at hresult
    split at hresult
    · next hrefused =>
      cases hresult
      exact ⟨key, value, rfl, rfl, hrefused⟩
    · cases hresult
  | selfDestruct beneficiary =>
    right; left
    have hresult : (host.selfDestruct beneficiary).1 = .error error :=
      Reply.of_ofExcept_eq_error (fun _ => Reply.noConfusion) h
    rw [selfDestruct_reply] at hresult
    cases hverdict : host.verdict .selfDestruct with
    | error cause =>
      rw [hverdict] at hresult
      cases hresult
      exact ⟨beneficiary, rfl, rfl⟩
    | ok =>
      rw [hverdict] at hresult
      cases hresult
  | call message =>
    right; right; left
    exact ⟨message, rfl, Reply.of_ofExcept_eq_error (fun _ => Reply.noConfusion) h⟩
  | log record =>
    right; right; right
    exact ⟨record, rfl, Reply.of_ofExcept_eq_error (fun _ => Reply.noConfusion) h⟩
  -- No other callback has an error for an answer.
  | _ => cases h

/-! ## What is left behind -/

/-- A callback that fails has handed no payload over. -/
theorem taken?_of_error {host : Host} {callback : Callback} {error : HostError}
    (h : (host.step callback).1 = .error error) : host.taken? callback = none := by
  rcases step_eq_error_cases h with ⟨key, value, rfl, -, -⟩ | ⟨beneficiary, rfl, hverdict⟩ |
    ⟨message, rfl, -⟩ | ⟨record, rfl, hresult⟩
  · rfl
  · -- The notice was refused, so its number is set to fail.
    obtain ⟨code, hfind, -⟩ := of_verdict_eq_error hverdict
    have hset : host.boundary.failures.find? host.settings.numbering.selfDestruct = some code :=
      hfind
    simp only [taken?, hset]
  · rfl
  · rw [emitLog_reply] at hresult
    cases hencode : record.encode host.settings.logCapacity with
    | error cause => exact taken?_log_of_error hencode
    | ok encoded =>
      rw [hencode] at hresult
      obtain ⟨code, hfind, -⟩ := of_verdict_eq_error hresult
      have hset : host.boundary.failures.find? host.settings.numbering.log = some code := hfind
      simp only [taken?, hset]

/-- A callback that fails leaves the session as it was, but for the beneficiary. -/
theorem sessionAfter_of_error {host : Host} {callback : Callback} {error : HostError}
    (h : (host.step callback).1 = .error error) :
    host.sessionAfter callback =
      { host.session with
        beneficiary := host.session.beneficiary.or callback.beneficiary? } := by
  rcases step_eq_error_cases h with ⟨key, value, rfl, -, hrefused⟩ | ⟨beneficiary, rfl, -⟩ |
    ⟨message, rfl, -⟩ | ⟨record, rfl, -⟩
  · simp only [sessionAfter, hrefused, if_true, Callback.beneficiary?, Option.or_none]
  · exact host.session.markDestructed_eq beneficiary
  · simp only [sessionAfter, Callback.beneficiary?, Option.or_none]
  · simp only [sessionAfter, Callback.beneficiary?, Option.or_none]

/-- The host after a callback that failed: a self-destruction is noted all the same, and a message
may be kept and asked. -/
theorem step_host_of_error {host : Host} {callback : Callback} {error : HostError}
    (h : (host.step callback).1 = .error error) :
    (host.step callback).2 =
      { host with
        session := { host.session with
          beneficiary := host.session.beneficiary.or callback.beneficiary? }
        boundary := { host.boundary with
          messages := host.boundary.messages ++ (host.recorded? callback).toList
          responder := host.boundary.responder.map fun responder =>
            responder.after (host.recorded? callback).toList } } := by
  rw [step_host, sessionAfter_of_error h, taken?_of_error h]
  simp only [Boundary.keep, Option.toList_none, List.append_nil]

/-- The message of a nested call is kept if it fits and no status is set for calls. -/
theorem recorded?_call_eq_some_iff (host : Host) (message : CallMessage) (encoded : Bytes) :
    host.recorded? (.call message) = some encoded ↔
      message.encode host.settings.callCapacity = .ok encoded ∧
        host.boundary.failures.find? host.settings.numbering.call = none := by
  rw [recorded?_call]
  cases hfind : host.boundary.failures.find? host.settings.numbering.call with
  | some code => simp
  | none => cases message.encode host.settings.callCapacity <;> simp [Except.toOption]

/-- A callback that fails leaves a message exactly if it is a nested call whose message the boundary
took, and then the answer was too long or malformed. -/
theorem recorded?_of_error {host : Host} {callback : Callback} {error : HostError}
    (h : (host.step callback).1 = .error error) (encoded : Bytes) :
    host.recorded? callback = some encoded ↔
      ∃ message, callback = .call message ∧
        message.encode host.settings.callCapacity = .ok encoded ∧
        host.boundary.failures.find? host.settings.numbering.call = none ∧
        (host.settings.callCapacity < (host.boundary.answer encoded).length ∧
            error = .status ⟨.call, host.settings.numbering.call, Boundary.answerTooLong⟩ ∨
          (host.boundary.answer encoded).length ≤ host.settings.callCapacity ∧
            ∃ fault, error = .wire (.malformedResult fault)) := by
  constructor
  · intro hrecorded
    rcases step_eq_error_cases h with ⟨key, value, rfl, -, -⟩ | ⟨beneficiary, rfl, -⟩ |
      ⟨message, rfl, hresult⟩ | ⟨record, rfl, -⟩
    · rw [host.recorded?_of_message?_eq_none _ rfl] at hrecorded
      cases hrecorded
    · rw [host.recorded?_of_message?_eq_none _ rfl] at hrecorded
      cases hrecorded
    · obtain ⟨hencode, hfind⟩ := (host.recorded?_call_eq_some_iff message encoded).1 hrecorded
      refine ⟨message, rfl, hencode, hfind, ?_⟩
      rw [call_of_none hencode hfind] at hresult
      -- The message crossed, so the error is what the answer came to.
      rcases host.settings.readAnswer_cases message.gas (host.boundary.answer encoded)
        with ⟨hlong, hread⟩ | ⟨hfits, fault, hread⟩ | ⟨-, result, hread⟩
      · rw [hread] at hresult
        cases hresult
        exact .inl ⟨hlong, rfl⟩
      · rw [hread] at hresult
        cases hresult
        exact .inr ⟨hfits, fault, rfl⟩
      · rw [hread] at hresult
        cases hresult
    · rw [host.recorded?_of_message?_eq_none _ rfl] at hrecorded
      cases hrecorded
  · rintro ⟨message, rfl, hencode, hfind, -⟩
    exact (host.recorded?_call_eq_some_iff message encoded).2 ⟨hencode, hfind⟩

/-- An error that is neither a status nor a malformed answer leaves the host as it was. -/
theorem step_eq_self_of_error {host : Host} {callback : Callback} {error : HostError}
    (h : (host.step callback).1 = .error error) (hstatus : ∀ cause, error ≠ .status cause)
    (hmalformed : ∀ fault, error ≠ .wire (.malformedResult fault)) :
    (host.step callback).2 = host := by
  -- A message is kept of a call that fails only by its answer.
  have hquiet : host.recorded? callback = none := by
    refine Option.eq_none_iff_forall_ne_some.2 fun encoded hrecorded => ?_
    obtain ⟨-, -, -, -, ⟨-, hlong⟩ | ⟨-, fault, hfault⟩⟩ :=
      (recorded?_of_error h encoded).1 hrecorded
    · exact hstatus _ hlong
    · exact hmalformed fault hfault
  have hbeneficiary : callback.beneficiary? = none := by
    rcases step_eq_error_cases h with ⟨key, value, rfl, -, -⟩ | ⟨beneficiary, rfl, hverdict⟩ |
      ⟨message, rfl, -⟩ | ⟨record, rfl, -⟩
    · rfl
    · -- The notice of a self-destruction fails with a status alone.
      obtain ⟨code, -, hcode⟩ := of_verdict_eq_error hverdict
      exact absurd hcode (hstatus _)
    · rfl
    · rfl
  rw [step_host_of_error h, hquiet, hbeneficiary, Option.or_none, Option.toList_none,
    List.append_nil, Boundary.map_after_nil]

/-- A nested call that fails is taken for a failure without gas. -/
theorem callOrFailure_of_error {host : Host} {message : CallMessage} {error : HostError}
    (h : (host.call message).1 = .error error) :
    host.callOrFailure message = (.failure 0, (host.call message).2) := by
  rw [callOrFailure_eq, h]

/-- What a failure leaves behind.

* After a callback that is answered with an error, the storage, the origin, the accounts, the
  settings, and all of the boundary but its messages and its responder are as before. So is the
  beneficiary, unless the callback is the first self-destruction, which sets it. The responder was
  asked the message that is kept, once, and nothing else.
* A message is kept exactly if the callback is a nested call whose message fits and is taken by the
  boundary. The error then says that the answer was too long or malformed.
* A message that overflows its buffer and a write that is refused after a self-destruction leave the
  host, and so its boundary, as it was.
* The nested call that cannot fail leaves the same host as the one that can. Where that one fails,
  it answers a failure without gas, output and address. -/
theorem step_error (host : Host) :
    (∀ callback error, (host.step callback).1 = .error error →
      let after := (host.step callback).2
      after = { host with
        session := { host.session with
          beneficiary := host.session.beneficiary.or callback.beneficiary? }
        boundary := { host.boundary with
          messages := host.boundary.messages ++ (host.recorded? callback).toList
          responder := host.boundary.responder.map fun responder =>
            responder.after (host.recorded? callback).toList } } ∧
      (∀ encoded, host.recorded? callback = some encoded ↔
        ∃ message, callback = .call message ∧
          message.encode host.settings.callCapacity = .ok encoded ∧
          host.boundary.failures.find? host.settings.numbering.call = none ∧
          (host.settings.callCapacity < (host.boundary.answer encoded).length ∧
              error = .status ⟨.call, host.settings.numbering.call, Boundary.answerTooLong⟩ ∨
            (host.boundary.answer encoded).length ≤ host.settings.callCapacity ∧
              ∃ fault, error = .wire (.malformedResult fault))) ∧
      ((∃ required capacity, error = .wire (.bufferOverflow required capacity)) ∨
          (∃ key, error = .writeAfterDestruct key) →
        after = host)) ∧
    ∀ message, (host.callOrFailure message).2 = (host.call message).2 ∧
      ∀ error, (host.call message).1 = .error error → (host.callOrFailure message).1 =
        { status := .failure, gasLeft := 0, output := [], created := .zero } := by
  constructor
  · intro callback error h after
    refine ⟨step_host_of_error h, recorded?_of_error h, ?_⟩
    intro hearly
    -- Neither of these errors is a status or a malformed result.
    refine step_eq_self_of_error h (fun cause hcause => ?_) (fun fault hfault => ?_)
    · rcases hearly with ⟨required, capacity, rfl⟩ | ⟨key, rfl⟩ <;> cases hcause
    · rcases hearly with ⟨required, capacity, rfl⟩ | ⟨key, rfl⟩ <;> cases hfault
  · intro message
    refine ⟨?_, fun error h => ?_⟩
    · rw [callOrFailure_eq]
    · rw [callOrFailure_of_error h]
      rfl

/-- A nested call that is answered with a negative length fails, its message is kept, and the
responder has counted it once. -/
theorem step_error_negative :
    let counting (asked : Nat) : Responder :=
      { Memory := Nat, memory := asked, respond := fun n _ => ([255, 255, 255, 255], n + 1) }
    let boundary : Boundary := { responder := some (counting 0) }
    let host : Host := ⟨boundary, { origin := .zero }, .blank, { callCapacity := 200 }⟩
    let callback : Callback := .call default
    (host.step callback).1 = .error (.wire (.malformedResult (.negativeLength (-1)))) ∧
      (host.step callback).2 =
        { host with boundary :=
          { boundary with
            messages := [(default : CallMessage).encoding]
            responder := some (counting 1) } } := by
  intro counting boundary host callback
  have herror : (host.step callback).1 =
      .error (.wire (.malformedResult (.negativeLength (-1)))) := by
    decide +kernel
  have hrecorded : host.recorded? callback = some (default : CallMessage).encoding := by
    decide +kernel
  obtain ⟨hfailed, -⟩ := step_error host
  obtain ⟨hafter, -⟩ := hfailed callback _ herror
  rw [hrecorded] at hafter
  exact ⟨herror, hafter⟩

end Host

end CallGate
