import Mathlib.Data.Nat.Basic
import Mathlib.Order.Basic
import CallGate.Proofs.Host.Effect

/-!
# The life of a session

A session is active up to the first self-destruction and destructed from then on. Three things
come of a self-destruction, and they can differ: the session is marked, the beneficiary is kept if
it is the first, and the answer says whether it is the first, unless the boundary refuses the
notice. So a refused notice hides the only answer that could have said so.

* `Host.run_beneficiary`, `Host.run_state`: what a run makes of the session.
* `Host.step_eq_first_true_iff`: which callback is answered to be the first self-destruction.
* `Host.count_first_true_run`: at most one is.
* `Host.run_lifecycle`: the life of a session over a run and its ending.
-/

namespace CallGate

namespace Session

/-- A session is active as long as it has no beneficiary. -/
theorem state_eq_active_iff (session : Session) :
    session.state = .active ↔ session.beneficiary = none := by
  cases h : session.beneficiary <;> simp [state, h]

/-- A session is destructed once it has a beneficiary. -/
theorem state_eq_destructed_iff (session : Session) :
    session.state = .destructed ↔ session.beneficiary.isSome := by
  cases h : session.beneficiary <;> simp [state, h]

/-- A session that is active is told that this self-destruction is its first. -/
theorem markDestructed_first (session : Session) (beneficiary : Address) :
    (session.markDestructed beneficiary).1 = decide (session.state = .active) := by
  cases h : session.beneficiary <;> simp [markDestructed, state, h]

end Session

namespace Host

/-- The status with which the boundary answers a payload of an operation. -/
def status (host : Host) (syscall : Syscall) (payload : Bytes) : Int :=
  (host.boundary.send (host.settings.numbering.number syscall) payload).1

/-! ## Answers -/

/-- The verdict is that on the status of any payload. -/
theorem verdict_eq_check (host : Host) (syscall : Syscall) (payload : Bytes) :
    host.verdict syscall =
      (host.bridge.check syscall (host.status syscall payload)).mapError .status :=
  host.verdict_eq syscall payload

/-- The status zero is no objection. -/
theorem verdict_of_eq_zero {host : Host} {syscall : Syscall} {payload : Bytes}
    (h : host.status syscall payload = 0) : host.verdict syscall = .ok () := by
  rw [host.verdict_eq_check syscall payload, h, Bridge.check_zero]
  rfl

/-- Any other status is an error with the operation, its number and the status. -/
theorem verdict_of_ne_zero {host : Host} {syscall : Syscall} {payload : Bytes}
    (h : host.status syscall payload ≠ 0) :
    host.verdict syscall = .error (.status
      ⟨syscall, host.settings.numbering.number syscall, host.status syscall payload⟩) := by
  rw [host.verdict_eq_check syscall payload, Bridge.check_of_ne h]
  rfl

/-- The embedder's mark is not refused. -/
theorem step_markDestructed (host : Host) (beneficiary : Address) :
    (host.step (.markDestructed beneficiary)).1 = .first (host.session.state = .active) :=
  congrArg Reply.first (host.session.markDestructed_first beneficiary)

/-- A self-destruction that the boundary accepts is told to be the first in an active session. -/
theorem step_selfDestruct_of_eq_zero {host : Host} {beneficiary : Address}
    (h : host.status .selfDestruct beneficiary.bytes = 0) :
    (host.step (.selfDestruct beneficiary)).1 = .first (host.session.state = .active) := by
  have hreply : (host.selfDestruct beneficiary).1 =
      .ok (decide (host.session.state = .active)) := by
    rw [selfDestruct_reply, verdict_of_eq_zero h, ← host.session.markDestructed_first beneficiary]
    rfl
  exact congrArg (Reply.ofExcept .first) hreply

/-- A refused notice is answered with its status, whether or not it was the first. -/
theorem step_selfDestruct_of_ne_zero {host : Host} {beneficiary : Address}
    (h : host.status .selfDestruct beneficiary.bytes ≠ 0) :
    (host.step (.selfDestruct beneficiary)).1 = .error (.status
      ⟨.selfDestruct, host.settings.numbering.selfDestruct,
        host.status .selfDestruct beneficiary.bytes⟩) := by
  have hreply : (host.selfDestruct beneficiary).1 = .error (.status
      ⟨.selfDestruct, host.settings.numbering.selfDestruct,
        host.status .selfDestruct beneficiary.bytes⟩) := by
    rw [selfDestruct_reply, verdict_of_ne_zero h]
    rfl
  exact congrArg (Reply.ofExcept .first) hreply

/-- No other answer tells of a first self-destruction. -/
theorem Reply.ofExcept_ne_first {α : Type} {reply : α → Reply} {first : Bool}
    (h : ∀ answer, reply answer ≠ .first first) (result : Except HostError α) :
    Reply.ofExcept reply result ≠ .first first := by
  cases result with
  | error error => exact Reply.noConfusion
  | ok answer => exact h answer

/-- Only a self-destruction is answered with whether it is the first. -/
theorem step_ne_first (host : Host) {callback : Callback} (h : callback.beneficiary? = none)
    (first : Bool) : (host.step callback).1 ≠ .first first := by
  cases callback with
  | selfDestruct beneficiary | markDestructed beneficiary => cases h
  | write key value | call message | log record =>
    exact Reply.ofExcept_ne_first (fun _ => Reply.noConfusion) _
  | _ => exact Reply.noConfusion

/-- A callback is answered to be the first self-destruction exactly if the session is active and
it is either the embedder's mark or a self-destruction whose notice the boundary takes. -/
theorem step_eq_first_true_iff (host : Host) (callback : Callback) :
    (host.step callback).1 = .first true ↔
      host.session.state = .active ∧
        ((∃ beneficiary, callback = .markDestructed beneficiary) ∨
          ∃ beneficiary, callback = .selfDestruct beneficiary ∧
            host.status .selfDestruct beneficiary.bytes = 0) := by
  cases callback with
  | markDestructed beneficiary => simp [step_markDestructed]
  | selfDestruct beneficiary =>
    by_cases hstatus : host.status .selfDestruct beneficiary.bytes = 0
    · simp [step_selfDestruct_of_eq_zero hstatus, hstatus]
    · simp [step_selfDestruct_of_ne_zero hstatus, hstatus]
  | _ => exact iff_of_false (host.step_ne_first rfl true) (by simp)

/-- In a destructed session a self-destruction is answered not to be the first, or refused. -/
theorem step_of_destructed {host : Host} (hstate : host.session.state = .destructed)
    {callback : Callback} (h : callback.beneficiary?.isSome) :
    (host.step callback).1 = .first false ∨
      ∃ beneficiary error, callback = .selfDestruct beneficiary ∧
        (host.step callback).1 = .error error := by
  cases callback with
  | markDestructed beneficiary =>
    left
    rw [step_markDestructed, hstate]
    rfl
  | selfDestruct beneficiary =>
    by_cases hstatus : host.status .selfDestruct beneficiary.bytes = 0
    · left
      rw [step_selfDestruct_of_eq_zero hstatus, hstate]
      rfl
    · right
      exact ⟨beneficiary, _, rfl, step_selfDestruct_of_ne_zero hstatus⟩
  | _ => cases h

/-- An ending has an outcome exactly if the execution failed or the boundary takes the output. -/
theorem finish_eq_ok_iff (host : Host) (success : Bool) (output : Bytes) (outcome : Outcome) :
    (host.finish success output).1 = .ok outcome ↔
      (success = false ∨ host.status .ret output = 0) ∧ outcome = host.session.outcome := by
  rw [finish_reply]
  cases success with
  | false => simp [Except.map, eq_comm]
  | true =>
    by_cases hstatus : host.status .ret output = 0
    · simp [verdict_of_eq_zero hstatus, hstatus, Except.map, eq_comm]
    · simp [verdict_of_ne_zero hstatus, hstatus, Except.map]

/-! ## Runs -/

/-- A callback gives the session its beneficiary only if it has none. -/
theorem step_beneficiary (host : Host) (callback : Callback) :
    (host.step callback).2.session.beneficiary =
      host.session.beneficiary.or callback.beneficiary? := by
  rw [step_host]
  exact host.sessionAfter_beneficiary callback

/-- After a run the beneficiary is the one from before, else that of the first self-destruction. -/
theorem run_beneficiary (host : Host) (callbacks : List Callback) :
    (host.run callbacks).2.session.beneficiary =
      host.session.beneficiary.or (callbacks.findSome? Callback.beneficiary?) := by
  induction callbacks generalizing host with
  | nil => exact Option.or_none.symm
  | cons callback rest ih =>
    rw [run_cons, ih, step_beneficiary, Option.or_assoc, List.findSome?_cons]
    cases callback.beneficiary? <;> rfl

/-- A session is destructed from the first self-destruction on. -/
theorem run_state (host : Host) (callbacks : List Callback) :
    (host.run callbacks).2.session.state = .destructed ↔
      host.session.state = .destructed ∨
        ∃ callback ∈ callbacks, callback.beneficiary?.isSome := by
  rw [Session.state_eq_destructed_iff, Session.state_eq_destructed_iff, run_beneficiary,
    Option.isSome_or, Bool.or_eq_true, List.findSome?_isSome_iff]

/-- A session stays active as long as no callback destructs it. -/
theorem run_state_active_iff (host : Host) (callbacks : List Callback) :
    (host.run callbacks).2.session.state = .active ↔
      host.session.state = .active ∧ ∀ callback ∈ callbacks, callback.beneficiary? = none := by
  rw [Session.state_eq_active_iff, Session.state_eq_active_iff, run_beneficiary,
    Option.or_eq_none_iff, List.findSome?_eq_none_iff]

/-- At most one callback of a run is answered to be the first self-destruction, and none if the
session was destructed before. -/
theorem count_first_true_run (host : Host) (callbacks : List Callback) :
    (host.run callbacks).1.count (.first true) ≤
      if host.session.state = .active then 1 else 0 := by
  induction callbacks generalizing host with
  | nil => exact Nat.zero_le _
  | cons callback rest ih =>
    have hrest := ih (host.step callback).2
    have hstate : (host.step callback).2.session.state = .active ↔
        host.session.state = .active ∧ callback.beneficiary? = none := by
      rw [Session.state_eq_active_iff, Session.state_eq_active_iff, step_beneficiary,
        Option.or_eq_none_iff]
    rw [run_cons, List.count_cons]
    by_cases hreply : (host.step callback).1 = .first true
    · -- The session is destructed after this answer, so no later callback gets it.
      obtain ⟨hactive, -⟩ := (host.step_eq_first_true_iff callback).1 hreply
      have hdestruct : callback.beneficiary? ≠ none := fun hnone =>
        host.step_ne_first hnone true hreply
      have hafter : ¬(host.step callback).2.session.state = .active := fun h =>
        hdestruct (hstate.1 h).2
      rw [if_neg hafter] at hrest
      simp [hreply, hactive, Nat.le_zero.1 hrest]
    · -- This answer does not count, and the session was active before if it is after.
      simp only [beq_iff_eq, hreply, if_false, Nat.add_zero]
      refine hrest.trans ?_
      split
      · next hafter => rw [if_pos (hstate.1 hafter).1]
      · exact Nat.zero_le _

/-- The life of a session over a run and its ending.

* At every point of the run the beneficiary is the one from before the run, else that of the first
  self-destruction, and the session is destructed if it was before the run or if some callback so
  far was a self-destruction, whatever the boundary said to it.
* A callback is answered to be the first self-destruction exactly if the session was active before
  the run, no earlier callback is a self-destruction, and it is either the embedder's mark or its
  notice is answered with the status zero. Every later self-destruction is answered not to be the
  first, or refused.
* No two callbacks are answered to be the first.
* The ending has an outcome exactly if the execution failed or the output is answered with the
  status zero. The outcome is what the session holds. -/
theorem run_lifecycle (host : Host) (callbacks : List Callback) :
    let replies := (host.run callbacks).1
    (∀ before, before <+: callbacks →
      let session := (host.run before).2.session
      session.beneficiary =
        host.session.beneficiary.or (before.findSome? Callback.beneficiary?) ∧
      (session.state = .destructed ↔ host.session.state = .destructed ∨
        ∃ callback ∈ before, callback.beneficiary?.isSome)) ∧
    (∀ (before : List Callback) (callback : Callback) (after : List Callback),
      callbacks = before ++ callback :: after →
      let here := (host.run before).2
      let reply := replies[before.length]?
      (reply = some (Reply.first true) ↔
        (host.session.state = .active ∧ ∀ earlier ∈ before, earlier.beneficiary? = none) ∧
        ((∃ beneficiary, callback = .markDestructed beneficiary) ∨
          ∃ beneficiary, callback = .selfDestruct beneficiary ∧
            here.status .selfDestruct beneficiary.bytes = 0)) ∧
      ((∃ earlier ∈ before, earlier.beneficiary?.isSome) → callback.beneficiary?.isSome →
        reply = some (Reply.first false) ∨
          ∃ beneficiary error, callback = .selfDestruct beneficiary ∧
            reply = some (Reply.error error))) ∧
    replies.count (Reply.first true) ≤ 1 ∧
    (∀ success output outcome,
      let last := (host.run callbacks).2
      (last.finish success output).1 = .ok outcome ↔
        (success = false ∨ last.status .ret output = 0) ∧ outcome = {
          observed := last.session.storage.observed
          written := last.session.storage.written
          destructed := last.session.state = .destructed
          beneficiary := last.session.beneficiary }) := by
  intro replies
  refine ⟨fun before _ => ⟨host.run_beneficiary before, host.run_state before⟩, ?_, ?_, ?_⟩
  · rintro before callback after rfl here reply
    -- The answer is that of the host as the callbacks before have left it.
    have hreply : reply = some (here.step callback).1 := host.getElem?_run before callback after
    refine ⟨?_, fun hearlier hcallback => ?_⟩
    · rw [hreply, Option.some_inj, step_eq_first_true_iff, run_state_active_iff]
    · have hstate : here.session.state = .destructed := (host.run_state before).2 (.inr hearlier)
      rw [hreply]
      rcases step_of_destructed hstate hcallback with hfirst | ⟨beneficiary, error, rfl, herror⟩
      · exact .inl (congrArg some hfirst)
      · exact .inr ⟨beneficiary, error, rfl, congrArg some herror⟩
  · refine (host.count_first_true_run callbacks).trans ?_
    split <;> decide
  · intro success output outcome last
    exact last.finish_eq_ok_iff success output outcome

/-- The notice of the first self-destruction is refused: no later one is the first. -/
example :
    let boundary := Boundary.failWith {} Syscall.selfDestruct.defaultNumber 1
    let host : Host := ⟨boundary, { origin := .zero }, .blank, {}⟩
    (host.run [.selfDestruct .zero, .markDestructed (.ofNat 1), .selfDestruct .zero]).1 =
      [Reply.error (.status ⟨.selfDestruct, 3077, 1⟩), Reply.first false,
        Reply.error (.status ⟨.selfDestruct, 3077, 1⟩)] := by
  decide +kernel

end Host

end CallGate
