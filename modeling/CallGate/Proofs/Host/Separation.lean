import CallGate.Proofs.Host.Effect

/-!
# Storage and traffic apart

A host has an inner half, which is the session with the accounts, and an outer half, which is the
boundary. Nested calls and log records use the outer half alone. Storage and the questions about
the transaction and the accounts use the inner half alone. Self-destructions use both: the session
takes them, and the boundary is told. So the one half can be served without the other.

Two runs are compared, one of a sequence of callbacks and one of the same sequence without some of
them. `Host.Unwinds` says what a relation between hosts needs at a single callback to hold between
the two runs.

* `Host.Unwinds.run`: the remaining callbacks are answered as before, and the hosts stay related.
* `Host.run_apart`: neither half notices when the other is left out.
-/

namespace CallGate

namespace Host

/-- A nested call or a log record. -/
def Callback.isTraffic : Callback → Bool
  | .call _ | .callOrFailure _ | .log _ => true
  | _ => false

/-- A question about the transaction or an account, or a use of the storage. -/
def Callback.isInner : Callback → Bool
  | .transaction | .account .. | .read _ | .write .. | .observe .. => true
  | _ => false

/-- The answers of a run to the callbacks that are kept. -/
def repliesTo (kept : Callback → Bool) (callbacks : List Callback) (replies : List Reply) :
    List Reply :=
  ((callbacks.zip replies).filter fun entry => kept entry.1).map Prod.snd

/-- The payloads that tell the boundary of the self-destructions of a run. There are none if their
number is set to fail. -/
def notices (host : Host) (callbacks : List Callback) : List (Nat × Bytes) :=
  match host.boundary.failures.find? host.settings.numbering.selfDestruct with
  | some _ => []
  | none => callbacks.filterMap fun
    | .selfDestruct beneficiary => some (host.settings.numbering.selfDestruct, beneficiary.bytes)
    | _ => none

/-! ## Two runs -/

/-- What a relation between hosts needs to hold between a run and the same run without the
callbacks that are not kept. -/
structure Unwinds (kept : Callback → Bool) (Alike : Host → Host → Prop) : Prop where
  /-- Both hosts answer a kept callback in the same way, and stay alike. -/
  served : ∀ {host other : Host} {callback : Callback}, Alike host other → kept callback = true →
    (other.step callback).1 = (host.step callback).1 ∧
      Alike (host.step callback).2 (other.step callback).2
  /-- A host that serves a callback which is not kept stays alike to one that does not. -/
  dropped : ∀ {host other : Host} {callback : Callback}, Alike host other →
    kept callback = false → Alike (host.step callback).2 other

theorem repliesTo_cons (kept : Callback → Bool) (callback : Callback) (callbacks : List Callback)
    (reply : Reply) (replies : List Reply) :
    repliesTo kept (callback :: callbacks) (reply :: replies) =
      if kept callback then reply :: repliesTo kept callbacks replies
      else repliesTo kept callbacks replies := by
  rw [repliesTo, List.zip_cons_cons, List.filter_cons]
  split <;> rfl

/-- A relation that unwinds holds from hosts on to the end of their runs. -/
theorem Unwinds.run {kept : Callback → Bool} {Alike : Host → Host → Prop}
    (h : Unwinds kept Alike) {host other : Host} (halike : Alike host other)
    (callbacks : List Callback) :
    (other.run (callbacks.filter kept)).1 = repliesTo kept callbacks (host.run callbacks).1 ∧
      Alike (host.run callbacks).2 (other.run (callbacks.filter kept)).2 := by
  -- The relation is what the runs hand on from one callback to the next.
  induction callbacks generalizing host other with
  | nil => exact ⟨rfl, halike⟩
  | cons callback rest ih =>
    rw [run_cons, repliesTo_cons, List.filter_cons]
    cases hkept : kept callback with
    | true =>
      obtain ⟨hreply, hnext⟩ := h.served halike hkept
      obtain ⟨hreplies, hlast⟩ := ih hnext
      rw [if_pos rfl, if_pos rfl, run_cons, hreply, hreplies]
      exact ⟨rfl, hlast⟩
    | false =>
      -- The shorter run stands still, and the answer of the longer one is not compared.
      rw [if_neg Bool.false_ne_true, if_neg Bool.false_ne_true]
      exact ih (h.dropped halike hkept)

/-! ## The inner half -/

/-- Hosts that differ at most in the traffic of their boundaries and in who answers calls. -/
structure SameInner (host other : Host) : Prop where
  session : other.session = host.session
  accounts : other.accounts = host.accounts
  settings : other.settings = host.settings
  failures : other.boundary.failures = host.boundary.failures

namespace SameInner

variable {host other : Host} {callback : Callback}

theorem refl (host : Host) : host.SameInner host :=
  ⟨rfl, rfl, rfl, rfl⟩

/-- Every callback but a nested call or a log record is answered alike. -/
theorem step_reply (h : host.SameInner other) (hquiet : callback.isTraffic = false) :
    (other.step callback).1 = (host.step callback).1 := by
  cases callback with
  | call message => cases hquiet
  | callOrFailure message => cases hquiet
  | log record => cases hquiet
  | write key value =>
    -- Whether the write is refused depends on the session and the settings alone.
    simp only [step, writeSlot, h.session, h.settings]
    split <;> rfl
  | selfDestruct beneficiary =>
    -- The boundary has a say here, but its traffic has none.
    have hreply : (other.selfDestruct beneficiary).1 = (host.selfDestruct beneficiary).1 := by
      rw [selfDestruct_reply, selfDestruct_reply, verdict_congr h.settings h.failures, h.session]
    exact congrArg (Reply.ofExcept .first) hreply
  | _ => simp only [step, transaction, readSlot, h.session, h.accounts, h.settings]

/-- No callback makes such hosts differ in more. -/
theorem step (h : host.SameInner other) (callback : Callback) :
    (host.step callback).2.SameInner (other.step callback).2 := by
  rw [step_host, step_host]
  exact ⟨congrFun (sessionAfter_congr h.settings h.session) callback, h.accounts, h.settings,
    h.failures⟩

/-- A nested call or a log record that only one of the hosts serves changes its outer half alone. -/
theorem step_left (h : host.SameInner other) (htraffic : callback.isTraffic = true) :
    (host.step callback).2.SameInner other := by
  have hsession : host.sessionAfter callback = host.session := by
    cases callback with
    | call | callOrFailure | log => rfl
    | _ => cases htraffic
  rw [step_host]
  exact ⟨h.session.trans hsession.symm, h.accounts, h.settings, h.failures⟩

/-- A run that leaves the traffic out can be compared with the whole run. -/
theorem unwinds : Unwinds (fun callback => !callback.isTraffic) SameInner where
  served h hkept := ⟨h.step_reply (by simpa using hkept), h.step _⟩
  dropped h hkept := h.step_left (by simpa using hkept)

/-- Both executions end alike. -/
theorem finish_reply (h : host.SameInner other) (success : Bool) (output : Bytes) :
    (other.finish success output).1 = (host.finish success output).1 := by
  rw [Host.finish_reply, Host.finish_reply, verdict_congr h.settings h.failures, h.session]

end SameInner

/-! ## The outer half -/

/-- Hosts that differ at most in their storage and in what they know of the transaction and the
accounts. -/
structure SameOuter (host other : Host) : Prop where
  boundary : other.boundary = host.boundary
  settings : other.settings = host.settings
  beneficiary : other.session.beneficiary = host.session.beneficiary

namespace SameOuter

variable {host other : Host} {callback : Callback}

theorem refl (host : Host) : host.SameOuter host :=
  ⟨rfl, rfl, rfl⟩

theorem failures (h : host.SameOuter other) :
    other.boundary.failures = host.boundary.failures := by
  rw [h.boundary]

/-- Nested calls are answered alike. -/
theorem call_reply (h : host.SameOuter other) (message : CallMessage) :
    (other.call message).1 = (host.call message).1 :=
  call_congr h.settings h.failures (by rw [h.boundary]) message

/-- A self-destruction is the first for both hosts or for neither. -/
theorem markDestructed_first (h : host.SameOuter other) (beneficiary : Address) :
    (other.session.markDestructed beneficiary).1 =
      (host.session.markDestructed beneficiary).1 := by
  rw [Session.markDestructed, Session.markDestructed, h.beneficiary]
  split <;> rfl

/-- Every callback outside the inner half is answered alike. -/
theorem step_reply (h : host.SameOuter other) (houter : callback.isInner = false) :
    (other.step callback).1 = (host.step callback).1 := by
  cases callback with
  | settings => exact congrArg Reply.settings h.settings
  | call message => exact congrArg (Reply.ofExcept .result) (h.call_reply message)
  | callOrFailure message =>
    exact congrArg Reply.result (callOrFailure_congr (h.call_reply message))
  | log record =>
    exact congrArg (Reply.ofExcept fun _ => .done) (emitLog_congr h.settings h.failures record)
  | selfDestruct beneficiary =>
    have hreply : (other.selfDestruct beneficiary).1 = (host.selfDestruct beneficiary).1 := by
      rw [selfDestruct_reply, selfDestruct_reply, verdict_congr h.settings h.failures,
        h.markDestructed_first]
    exact congrArg (Reply.ofExcept .first) hreply
  | markDestructed beneficiary => exact congrArg Reply.first (h.markDestructed_first beneficiary)
  | _ => cases houter

/-- No callback makes such hosts differ in more. -/
theorem step (h : host.SameOuter other) (callback : Callback) :
    (host.step callback).2.SameOuter (other.step callback).2 := by
  rw [step_host, step_host]
  refine ⟨?_, h.settings, ?_⟩
  · -- What is kept depends on nothing but the settings and the statuses that are set.
    rw [h.boundary, taken?_congr h.settings h.failures, recorded?_congr h.settings h.failures]
  · rw [sessionAfter_beneficiary, sessionAfter_beneficiary, h.beneficiary]

/-- A callback of the inner half that only one of the hosts serves changes that half alone. -/
theorem step_left (h : host.SameOuter other) (hinner : callback.isInner = true) :
    (host.step callback).2.SameOuter other := by
  -- Nothing of it reaches the boundary, and it destroys nothing.
  obtain ⟨htaken, hmessage, hbeneficiary⟩ : host.taken? callback = none ∧
      callback.message? = none ∧ callback.beneficiary? = none := by
    cases callback with
    | transaction | account | read | write | observe => exact ⟨rfl, rfl, rfl⟩
    | _ => cases hinner
  rw [step_host, htaken, recorded?_of_message?_eq_none host callback hmessage, Option.toList_none,
    Option.toList_none, Boundary.keep_nil]
  refine ⟨h.boundary, h.settings, ?_⟩
  rw [sessionAfter_beneficiary, hbeneficiary, Option.or_none, h.beneficiary]

/-- A run that leaves the inner half out can be compared with the whole run. -/
theorem unwinds : Unwinds (fun callback => !callback.isInner) SameOuter where
  served h hkept := ⟨h.step_reply (by simpa using hkept), h.step _⟩
  dropped h hkept := h.step_left (by simpa using hkept)

/-- Both executions leave the boundary alike. -/
theorem finish_boundary (h : host.SameOuter other) (success : Bool) (output : Bytes) :
    (other.finish success output).2 = (host.finish success output).2 := by
  simp only [finish, bridge, h.boundary, h.settings]
  split <;> rfl

end SameOuter

/-! ## Both halves -/

/-- Without nested calls and log records the boundary takes the notices of self-destructions. -/
theorem filterMap_taken?_quiet (host : Host) (callbacks : List Callback) :
    (callbacks.filter fun callback => !callback.isTraffic).filterMap host.taken? =
      host.notices callbacks := by
  rw [List.filterMap_filter, notices]
  cases hfind : host.boundary.failures.find? host.settings.numbering.selfDestruct with
  | some code =>
    refine List.filterMap_eq_nil_iff.2 fun callback _ => ?_
    cases callback <;> simp [Callback.isTraffic, taken?, hfind]
  | none =>
    refine congrArg (callbacks.filterMap ·) (funext fun callback => ?_)
    cases callback <;> simp [Callback.isTraffic, taken?, hfind]

/-- Without the traffic no message is kept. -/
theorem filterMap_recorded?_quiet (host : Host) (callbacks : List Callback) :
    (callbacks.filter fun callback => !callback.isTraffic).filterMap host.recorded? = [] := by
  refine List.filterMap_eq_nil_iff.2 fun callback hmem => ?_
  have hquiet := (List.mem_filter.1 hmem).2
  refine host.recorded?_of_message?_eq_none callback ?_
  cases callback with
  | call | callOrFailure => cases hquiet
  | _ => rfl

/-- Storage and traffic do not interfere. Compare a run with two shorter ones.

* Without its nested calls and log records, all else is answered as before, the session ends as
  before, and every ending has the same outcome. The boundary takes the notices of
  self-destructions alone, which it took in the full run too.
* Without the uses of storage and the questions about the transaction and the accounts, all else is
  answered as before, and the boundary ends as before, also after any ending. -/
theorem run_apart (host : Host) (callbacks : List Callback) :
    let full := host.run callbacks
    let inner := host.run (callbacks.filter fun callback => !callback.isTraffic)
    let outer := host.run (callbacks.filter fun callback => !callback.isInner)
    (inner.1 = repliesTo (fun callback => !callback.isTraffic) callbacks full.1 ∧
      inner.2.session = full.2.session ∧
      (∀ success output, (inner.2.finish success output).1 = (full.2.finish success output).1) ∧
      inner.2.boundary = host.boundary.keep (host.notices callbacks) [] ∧
      inner.2.boundary.sent.Sublist full.2.boundary.sent) ∧
    (outer.1 = repliesTo (fun callback => !callback.isInner) callbacks full.1 ∧
      outer.2.boundary = full.2.boundary ∧
      ∀ success output, (outer.2.finish success output).2 = (full.2.finish success output).2) := by
  intro full inner outer
  obtain ⟨hinner, hsame⟩ := SameInner.unwinds.run (.refl host) callbacks
  obtain ⟨houter, hsame'⟩ := SameOuter.unwinds.run (.refl host) callbacks
  -- The boundary of the inner run has taken what the callbacks left in it hand over.
  have hboundary : inner.2.boundary = host.boundary.keep (host.notices callbacks) [] := by
    rw [← filterMap_taken?_quiet, ← host.filterMap_recorded?_quiet callbacks]
    exact congrArg Host.boundary (host.run_host _)
  refine ⟨⟨hinner, hsame.session, hsame.finish_reply, hboundary, ?_⟩,
    houter, hsame'.boundary, hsame'.finish_boundary⟩
  have hfull : full.2.boundary.sent = host.boundary.sent ++ callbacks.filterMap host.taken? :=
    congrArg (fun after => after.boundary.sent) (host.run_host callbacks)
  rw [hboundary, hfull, ← filterMap_taken?_quiet]
  exact (List.filter_sublist.filterMap host.taken?).append_left host.boundary.sent

end Host

end CallGate
