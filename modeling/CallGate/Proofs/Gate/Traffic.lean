import Mathlib.Algebra.BigOperators.Group.List.Basic
import Mathlib.Data.List.Dedup
import CallGate.Proofs.Gate.Boundary
import CallGate.Proofs.Run

/-!
# Traffic over a bridge

Operations of a bridge and raw crossings of its boundary share one record, and their numbers may be
the same. Whatever the numbers are, a crossing puts its payload or its message behind what was
recorded before, or it puts nothing anywhere, because its number is set to fail. The status that the
boundary has for a crossing is what a raw crossing answers, and an operation answers with an error
exactly when it is not zero.

* `Bridge.step_bridge`, `Bridge.run_bridge`: what a crossing and a run record.
* `Boundary.exchange_result`: when the result buffer is written.
* `Boundary.perm_sentTo`: the payloads by their numbers are all the payloads.
* `Bridge.run_traffic`: the record, the answers and the buffers of a run.
-/

namespace CallGate

open scoped List

namespace Boundary

/-- A payload is kept unless its number is set to fail. -/
theorem send_boundary (boundary : Boundary) (number : Nat) (payload : Bytes) :
    (boundary.send number payload).2 =
      boundary.keep (if boundary.failures.contains number then [] else [(number, payload)]) [] := by
  rw [OrderedMap.contains]
  cases hfind : boundary.failures.find? number with
  | some code => simp [send_of_some hfind, keep_nil]
  | none => simp [send_of_none hfind, keepPayload_eq_keep]

/-- A payload has the status that is set for its number, or zero. -/
theorem send_status (boundary : Boundary) (number : Nat) (payload : Bytes) :
    (boundary.send number payload).1 = (boundary.failures.find? number).getD 0 := by
  cases hfind : boundary.failures.find? number with
  | some code => simp [send_of_some hfind]
  | none => simp [send_of_none hfind]

/-- A message is kept unless its number is set to fail, whether or not its answer fits. -/
theorem exchange_boundary (boundary : Boundary) (number : Nat) (result message : Bytes) :
    (boundary.exchange number result message).2.2 =
      boundary.keep [] (if boundary.failures.contains number then [] else [message]) := by
  rw [OrderedMap.contains]
  cases hfind : boundary.failures.find? number with
  | some code => simp [exchange_of_some hfind, keep_nil]
  | none =>
    rw [exchange_of_none hfind]
    split <;> simp [keepMessage_eq_keep]

/-- A message has the status that is set for its number, or the one that tells if the answer
fits. -/
theorem exchange_status (boundary : Boundary) (number : Nat) (result message : Bytes) :
    (boundary.exchange number result message).1 = (boundary.failures.find? number).getD
      (if (boundary.answer message).length ≤ result.length then 0 else -1) := by
  cases hfind : boundary.failures.find? number with
  | some code => simp [exchange_of_some hfind]
  | none =>
    rw [exchange_of_none hfind]
    split <;> rfl

/-- The result buffer is written if the message is kept and its answer fits, and then the answer
lies over its front. -/
theorem exchange_result (boundary : Boundary) (number : Nat) (result message : Bytes) :
    (boundary.exchange number result message).2.1 =
      if boundary.failures.contains number = false ∧
          (boundary.answer message).length ≤ result.length then
        boundary.answer message ++ result.drop (boundary.answer message).length
      else result := by
  rw [OrderedMap.contains]
  cases hfind : boundary.failures.find? number with
  | some code => simp [exchange_of_some hfind]
  | none =>
    rw [exchange_of_none hfind]
    split <;> simp [*, overwrite]

/-! ## Payloads by their numbers -/

/-- The payloads of a number are the entries under that number. -/
theorem map_sentTo (boundary : Boundary) (number : Nat) :
    (boundary.sentTo number).map (number, ·) =
      boundary.sent.filter fun entry => entry.1 == number := by
  rw [sentTo, List.map_map]
  refine (List.map_congr_left fun entry hentry => ?_).trans (List.map_id _)
  obtain ⟨-, hnumber⟩ := List.mem_filter.1 hentry
  simp [← beq_iff_eq.1 hnumber]

/-- The payloads under a number are in the order in which they were sent. -/
theorem sublist_sentTo (boundary : Boundary) (number : Nat) :
    (boundary.sentTo number).map (number, ·) <+ boundary.sent := by
  rw [map_sentTo]
  exact List.filter_sublist

/-- Entries grouped by their numbers are all the entries, each as often as it occurs. -/
theorem perm_flatMap_filter (entries : List (Nat × Bytes)) :
    (entries.map Prod.fst).dedup.flatMap
      (fun number => entries.filter fun entry => entry.1 == number) ~ entries := by
  rw [List.perm_iff_count]
  intro entry
  -- An entry is counted under its own number alone, and the numbers are distinct.
  have hother : ∀ number ≠ entry.1, number ∈ (entries.map Prod.fst).dedup →
      (List.count entry ∘ fun number => entries.filter fun entry => entry.1 == number) number
        = 0 := by
    intro number hne _
    show List.count entry (entries.filter fun entry => entry.1 == number) = 0
    rw [List.count_eq_zero, List.mem_filter]
    rintro ⟨-, hnumber⟩
    exact hne (beq_iff_eq.1 hnumber).symm
  have hown : (entries.filter fun other => other.1 == entry.1).count entry = entries.count entry :=
    List.count_filter (beq_self_eq_true _)
  rw [List.count_flatMap, List.sum_map_eq_nsmul_single entry.1 _ hother]
  by_cases hentry : entry ∈ entries
  · have hnumber : (entries.map Prod.fst).dedup.count entry.1 = 1 :=
      List.count_eq_one_of_mem (List.nodup_dedup _)
        (List.mem_dedup.2 (List.mem_map_of_mem hentry))
    rw [hnumber, one_nsmul]
    exact hown
  · simp [hown, List.count_eq_zero.2 hentry]

/-- The payloads under all the numbers that occur are all the payloads. -/
theorem perm_sentTo (boundary : Boundary) :
    (boundary.sent.map Prod.fst).dedup.flatMap
      (fun number => (boundary.sentTo number).map (number, ·)) ~ boundary.sent := by
  simp only [map_sentTo]
  exact perm_flatMap_filter boundary.sent

/-- The payloads of a number are followed by those that are kept under it. -/
theorem sentTo_keep (boundary : Boundary) (payloads : List (Nat × Bytes)) (messages : List Bytes)
    (number : Nat) :
    (boundary.keep payloads messages).sentTo number = boundary.sentTo number ++
      payloads.filterMap fun entry => if entry.1 = number then some entry.2 else none := by
  -- Keeping the entries of a number and then their payloads is one pass.
  have hpayloads : (payloads.filter fun entry => entry.1 == number).map Prod.snd =
      payloads.filterMap fun entry => if entry.1 = number then some entry.2 else none := by
    rw [← List.filterMap_eq_filter, List.map_filterMap]
    congr 1
    funext entry
    by_cases h : entry.1 = number <;> simp [h]
  simp only [sentTo, keep, List.filter_append, List.map_append, hpayloads]

end Boundary

namespace Bridge

/-- What a crossing hands over. -/
inductive Cargo where
  /-- A payload. -/
  | payload (payload : Bytes)
  /-- A message, with the buffer for its answer. -/
  | message (message result : Bytes)

namespace Step

/-- What a crossing hands over. -/
def cargo : Step → Cargo
  | .ret output => .payload output
  | .log record => .payload record
  | .selfDestruct beneficiary => .payload beneficiary.bytes
  | .rawSend _ payload => .payload payload
  | .call message result => .message message result
  | .rawExchange _ message result => .message message result

/-- The operation of a crossing, unless it is a raw one. -/
def syscall? : Step → Option Syscall
  | .ret _ => some .ret
  | .log _ => some .log
  | .selfDestruct _ => some .selfDestruct
  | .call _ _ => some .call
  | .rawSend _ _ => none
  | .rawExchange _ _ _ => none

/-- The number under which a crossing is made. Numbers of operations and of raw crossings may be the
same. -/
def number (numbering : Numbering) : Step → Nat
  | .ret _ => numbering.number .ret
  | .log _ => numbering.number .log
  | .selfDestruct _ => numbering.number .selfDestruct
  | .call _ _ => numbering.number .call
  | .rawSend number _ => number
  | .rawExchange number _ _ => number

/-- The raw crossing that hands over the same under the same number. -/
def raw (numbering : Numbering) (step : Step) : Step :=
  match step.cargo with
  | .payload payload => .rawSend (step.number numbering) payload
  | .message message result => .rawExchange (step.number numbering) message result

/-- The payload that a crossing hands over under a number. -/
def payloadTo? (numbering : Numbering) (number : Nat) (step : Step) : Option Bytes :=
  match step.cargo with
  | .payload payload => if step.number numbering = number then some payload else none
  | .message _ _ => none

end Step

namespace Reply

/-- What an operation answers. -/
def outcome? : Reply → Option (Except StatusError Unit)
  | .outcome answer => some answer
  | .called answer _ => some answer
  | _ => none

/-- The status that a raw crossing answers. -/
def code? : Reply → Option Int
  | .status code => some code
  | .exchanged code _ => some code
  | _ => none

/-- The result buffer after an exchange. -/
def result? : Reply → Option Bytes
  | .called _ result => some result
  | .exchanged _ result => some result
  | _ => none

end Reply

/-- Whether a crossing is refused, because its number is set to fail. -/
def refuses (bridge : Bridge) (step : Step) : Bool :=
  bridge.boundary.failures.contains (step.number bridge.numbering)

/-- The status of a crossing: the one set for its number, or else whether the answer fits. -/
def status (bridge : Bridge) (step : Step) : Int :=
  (bridge.boundary.failures.find? (step.number bridge.numbering)).getD
    (match step.cargo with
      | .payload _ => 0
      | .message message result =>
        if (bridge.boundary.answer message).length ≤ result.length then 0 else -1)

/-- The payload that is kept of a crossing, with its number. -/
def taken? (bridge : Bridge) (step : Step) : Option (Nat × Bytes) :=
  if bridge.refuses step then none
  else
    match step.cargo with
    | .payload payload => some (step.number bridge.numbering, payload)
    | .message _ _ => none

/-- The message that is kept of a crossing. -/
def recorded? (bridge : Bridge) (step : Step) : Option Bytes :=
  if bridge.refuses step then none
  else
    match step.cargo with
    | .payload _ => none
    | .message message _ => some message

/-- The result buffer after a crossing that hands one over. -/
def resultAfter? (bridge : Bridge) (step : Step) : Option Bytes :=
  match step.cargo with
  | .payload _ => none
  | .message message result =>
    let answer := bridge.boundary.answer message
    if bridge.refuses step = false ∧ answer.length ≤ result.length then
      some (answer ++ result.drop answer.length)
    else some result

/-! ## One crossing -/

/-- A crossing is the crossing of the boundary that hands over the same. -/
theorem step_boundary (bridge : Bridge) (step : Step) :
    (bridge.step step).2 =
      { bridge with
        boundary :=
          match step.cargo with
          | .payload payload =>
            (bridge.boundary.send (step.number bridge.numbering) payload).2
          | .message message result =>
            (bridge.boundary.exchange (step.number bridge.numbering) result message).2.2 } := by
  cases step <;> rfl

/-- A crossing puts what it hands over behind what the boundary has kept, or it changes nothing. -/
theorem step_bridge (bridge : Bridge) (step : Step) :
    (bridge.step step).2 =
      { bridge with
        boundary := bridge.boundary.keep (bridge.taken? step).toList
          (bridge.recorded? step).toList } := by
  rw [step_boundary, taken?, recorded?, refuses]
  cases step.cargo with
  | payload payload =>
    simp only [Boundary.send_boundary]
    split <;> rfl
  | message message result =>
    simp only [Boundary.exchange_boundary]
    split <;> rfl

/-- No crossing changes the numbers. -/
theorem step_numbering (bridge : Bridge) (step : Step) :
    (bridge.step step).2.numbering = bridge.numbering := by
  rw [step_bridge]

/-- No crossing changes which numbers are set to fail. -/
theorem step_failures (bridge : Bridge) (step : Step) :
    (bridge.step step).2.boundary.failures = bridge.boundary.failures := by
  rw [step_bridge]
  rfl

/-- A crossing does not change which later ones are refused. -/
theorem step_refuses (bridge : Bridge) (step : Step) :
    (bridge.step step).2.refuses = bridge.refuses := by
  funext later
  rw [refuses, refuses, step_failures, step_numbering]

/-- A crossing changes nothing that decides what later ones leave. -/
theorem step_taken? (bridge : Bridge) (step : Step) :
    (bridge.step step).2.taken? = bridge.taken? := by
  funext later
  rw [taken?, taken?, step_refuses, step_numbering]

/-- A crossing changes nothing that decides which messages of later ones are kept. -/
theorem step_recorded? (bridge : Bridge) (step : Step) :
    (bridge.step step).2.recorded? = bridge.recorded? := by
  funext later
  rw [recorded?, recorded?, step_refuses]

/-- A raw crossing answers the status. -/
theorem step_code? (bridge : Bridge) (step : Step) :
    (bridge.step step).1.code? =
      if step.syscall? = none then some (bridge.status step) else none := by
  cases step with
  | rawSend number payload => exact congrArg some (bridge.boundary.send_status number payload)
  | rawExchange number message result =>
    exact congrArg some (bridge.boundary.exchange_status number result message)
  | _ => rfl

/-- An operation answers with its status checked. -/
theorem step_outcome? (bridge : Bridge) (step : Step) :
    (bridge.step step).1.outcome? =
      step.syscall?.map fun syscall => bridge.check syscall (bridge.status step) := by
  cases step with
  | ret output => exact congrArg some (bridge.notify_status .ret output)
  | log record => exact congrArg some (bridge.notify_status .log record)
  | selfDestruct beneficiary =>
    exact congrArg some (bridge.notify_status .selfDestruct beneficiary.bytes)
  | call message result =>
    exact congrArg (fun code => some (bridge.check .call code))
      (bridge.boundary.exchange_status (bridge.numbering.number .call) result message)
  | rawSend number payload => rfl
  | rawExchange number message result => rfl

/-- The result buffer of a crossing is its answer over what was there, unless it was refused or does
not fit. -/
theorem step_result? (bridge : Bridge) (step : Step) :
    (bridge.step step).1.result? = bridge.resultAfter? step := by
  cases step with
  | call message result =>
    refine (congrArg some (bridge.boundary.exchange_result _ result message)).trans ?_
    rw [apply_ite some]
    rfl
  | rawExchange number message result =>
    refine (congrArg some (bridge.boundary.exchange_result number result message)).trans ?_
    rw [apply_ite some]
    rfl
  | _ => rfl

/-- The raw crossing leaves the bridge as the crossing does. -/
theorem step_raw_bridge (bridge : Bridge) (step : Step) :
    (bridge.step (step.raw bridge.numbering)).2 = (bridge.step step).2 := by
  cases step <;> rfl

/-- The raw crossing has the status that the crossing is checked with. -/
theorem step_raw_code? (bridge : Bridge) (step : Step) :
    (bridge.step (step.raw bridge.numbering)).1.code? = some (bridge.status step) := by
  have hraw : (step.raw bridge.numbering).syscall? = none ∧
      bridge.status (step.raw bridge.numbering) = bridge.status step := by
    cases step <;> exact ⟨rfl, rfl⟩
  rw [step_code?, if_pos hraw.1, hraw.2]

/-- A crossing leaves an entry in one record at most. -/
theorem length_taken?_add_recorded? (bridge : Bridge) (step : Step) :
    (bridge.taken? step).toList.length + (bridge.recorded? step).toList.length =
      if bridge.refuses step then 0 else 1 := by
  rw [taken?, recorded?]
  cases bridge.refuses step <;> cases step.cargo <;> rfl

/-- Nothing is kept of a crossing exactly if it is refused: whatever it hands over is kept else. -/
theorem taken?_recorded?_eq_none_iff (bridge : Bridge) (step : Step) :
    bridge.taken? step = none ∧ bridge.recorded? step = none ↔ bridge.refuses step = true := by
  rw [taken?, recorded?]
  cases bridge.refuses step <;> cases step.cargo <;> simp

/-- Under a number a crossing leaves the payload that it sends there, unless the number is set to
fail. -/
theorem taken?_bind (bridge : Bridge) (number : Nat) (step : Step) :
    ((bridge.taken? step).bind fun entry => if entry.1 = number then some entry.2 else none) =
      if bridge.boundary.failures.contains number then none
      else step.payloadTo? bridge.numbering number := by
  -- The payload is kept under the number of the crossing, and that number decides if it is refused.
  rw [taken?, Step.payloadTo?, refuses]
  cases step.cargo with
  | message message result => simp
  | payload payload =>
    by_cases hnumber : step.number bridge.numbering = number
    · subst hnumber
      by_cases hfails : bridge.boundary.failures.contains (step.number bridge.numbering) <;>
        simp [hfails]
    · by_cases hfails : bridge.boundary.failures.contains (step.number bridge.numbering) <;>
        simp [hfails, hnumber]

/-! ## Runs -/

theorem isRun : IsRun Bridge.step Bridge.run :=
  ⟨fun _ => rfl, fun _ _ _ => rfl⟩

/-- The last crossing finds the bridge as those before it have left it. -/
theorem run_concat_bridge (bridge : Bridge) (before : List Step) (step : Step) :
    (bridge.run (before ++ [step])).2 = ((bridge.run before).2.step step).2 :=
  congrArg Prod.snd (isRun.append bridge before [step])

/-- A run puts what its crossings hand over behind what the boundary has kept, except what is
refused. -/
theorem run_bridge (bridge : Bridge) (steps : List Step) :
    (bridge.run steps).2 =
      { bridge with
        boundary := bridge.boundary.keep (steps.filterMap bridge.taken?)
          (steps.filterMap bridge.recorded?) } := by
  induction steps generalizing bridge with
  | nil => simp only [run, List.filterMap_nil, Boundary.keep_nil]
  | cons step rest ih =>
    -- The rest of the run leaves what it would have left without the crossing before it.
    rw [isRun.cons, ih, step_taken?, step_recorded?]
    simp only [step_bridge, Boundary.keep_keep, List.filterMap_eq_flatMap_toList, List.flatMap_cons]

/-- What a run adds under a number are the payloads handed over under it, in their order. -/
theorem sentTo_run (bridge : Bridge) (steps : List Step) (number : Nat) :
    (bridge.run steps).2.boundary.sentTo number = bridge.boundary.sentTo number ++
      if bridge.boundary.failures.contains number then []
      else steps.filterMap (Step.payloadTo? bridge.numbering number) := by
  rw [run_bridge, Boundary.sentTo_keep, List.filterMap_filterMap]
  simp only [taken?_bind]
  split
  · simp
  · rfl

/-- What holds of a crossing from one bridge to the next, with what it answers. -/
structure Crosses (here : Bridge) (step : Step) (reply : Reply) (next : Bridge) : Prop where
  /-- Nothing changes except what the boundary has kept, and the responder is asked once for a
  message that is kept. -/
  kept : next =
    { here with
      boundary := here.boundary.keep (here.taken? step).toList (here.recorded? step).toList }
  /-- The payloads before the crossing stay. -/
  sent_grows : here.boundary.sent <+: next.boundary.sent
  /-- The messages before the crossing stay. -/
  messages_grow : here.boundary.messages <+: next.boundary.messages
  /-- There is at most one entry more. -/
  one_entry : next.boundary.sent.length + next.boundary.messages.length ≤
    here.boundary.sent.length + here.boundary.messages.length + 1
  /-- There is none exactly if the number of the crossing is set to fail, whatever the status. -/
  no_entry_iff : (next.boundary.sent = here.boundary.sent ∧
      next.boundary.messages = here.boundary.messages) ↔
    ∃ code, here.boundary.failures.find? (step.number here.numbering) = some code
  /-- The raw crossing answers the status, and changes the same. -/
  raw : (here.step (step.raw here.numbering)).1.code? = some (here.status step) ∧
    (here.step (step.raw here.numbering)).2 = next
  /-- A crossing that is a raw one answers the status itself. -/
  code : step.syscall? = none → reply.code? = some (here.status step)
  /-- An operation answers with success, or with an error that has its name, its number and the
  status. -/
  outcome : ∀ syscall, step.syscall? = some syscall →
    (reply.outcome? = some (.ok ()) ↔ here.status step = 0) ∧
    (here.status step ≠ 0 →
      reply.outcome? =
        some (.error ⟨syscall, here.numbering.number syscall, here.status step⟩))
  /-- The result buffer is written if the number is not set to fail and the answer fits. -/
  result : reply.result? = here.resultAfter? step
  /-- A message whose answer is too long is kept, and its buffer is left alone. -/
  too_long : ∀ message result, step.cargo = .message message result →
    here.boundary.failures.find? (step.number here.numbering) = none →
    result.length < (here.boundary.answer message).length →
    next.boundary.messages = here.boundary.messages ++ [message] ∧
      reply.result? = some result ∧ here.status step = -1

/-- Every crossing is such a crossing. -/
theorem crosses_step (bridge : Bridge) (step : Step) :
    Crosses bridge step (bridge.step step).1 (bridge.step step).2 where
  kept := bridge.step_bridge step
  sent_grows := by
    rw [step_bridge]
    exact List.prefix_append _ _
  messages_grow := by
    rw [step_bridge]
    exact List.prefix_append _ _
  one_entry := by
    -- What is left behind both records together is one entry at most.
    have hentries := bridge.length_taken?_add_recorded? step
    rw [step_bridge]
    simp only [Boundary.keep, List.length_append]
    split at hentries <;> omega
  no_entry_iff := by
    rw [step_bridge, ← Option.isSome_iff_exists]
    refine Iff.trans ?_ (bridge.taken?_recorded?_eq_none_iff step)
    simp [Boundary.keep]
  raw := ⟨bridge.step_raw_code? step, bridge.step_raw_bridge step⟩
  code := fun hraw => by rw [step_code?, if_pos hraw]
  outcome := fun syscall hsyscall => by
    rw [step_outcome?, hsyscall, Option.map_some, check]
    constructor
    · split <;> simp [*]
    · intro hstatus
      rw [if_neg hstatus]
  result := bridge.step_result? step
  too_long := fun message result hcargo hfind hlong => by
    have hlate : ¬(bridge.boundary.answer message).length ≤ result.length := Nat.not_le.2 hlong
    have hrefuses : bridge.refuses step = false :=
      (OrderedMap.contains_eq_false_iff _ _).2 hfind
    rw [step_bridge, step_result?]
    simp [taken?, recorded?, resultAfter?, status, Boundary.keep, hcargo, hfind, hrefuses, hlate]

/-- What is under a number after a run is what was there before and, behind it, the payloads of the
run under that number, and the payloads under all numbers together are all that were kept. Every
crossing of the run changes and answers what its number and what it hands over say. -/
theorem run_traffic (bridge : Bridge) (steps : List Step) :
    (∀ before step after, steps = before ++ step :: after →
      ∃ reply, (bridge.run steps).1[before.length]? = some reply ∧
        Crosses (bridge.run before).2 step reply (bridge.run (before ++ [step])).2) ∧
    (bridge.run steps).1.length = steps.length ∧
    (bridge.run steps).2 =
      { bridge with
        boundary := bridge.boundary.keep (steps.filterMap bridge.taken?)
          (steps.filterMap bridge.recorded?) } ∧
    (∀ number, (bridge.run steps).2.boundary.sentTo number = bridge.boundary.sentTo number ++
      if bridge.boundary.failures.contains number then []
      else steps.filterMap (Step.payloadTo? bridge.numbering number)) ∧
    (∀ number, ((bridge.run steps).2.boundary.sentTo number).map (number, ·) <+
      (bridge.run steps).2.boundary.sent) ∧
    ((bridge.run steps).2.boundary.sent.map Prod.fst).dedup.flatMap
        (fun number => ((bridge.run steps).2.boundary.sentTo number).map (number, ·)) ~
      (bridge.run steps).2.boundary.sent := by
  refine ⟨?_, isRun.length bridge steps, bridge.run_bridge steps, bridge.sentTo_run steps,
    fun number => Boundary.sublist_sentTo _ number, Boundary.perm_sentTo _⟩
  rintro before step after rfl
  refine ⟨_, isRun.getElem? bridge before step after, ?_⟩
  rw [run_concat_bridge]
  exact crosses_step _ step

-- Output and log records share a number with a raw crossing. The number of self-destructions is set
-- to fail with status zero: nothing is kept, and the operation succeeds. The first answer is too
-- long for its buffer, but the message is kept.
example :
    let bridge : Bridge :=
      { boundary :=
          { responder := some (.stateless fun message => 7 :: message)
            failures := .ofList [(4, 0)] }
        numbering := { ret := 3, log := 3, selfDestruct := 4, call := 5 } }
    let (replies, last) := bridge.run
      [.ret [1], .rawSend 3 [2], .selfDestruct default, .call [8] [0], .log [3],
        .rawExchange 5 [9] [0, 0, 0]]
    last.boundary.sent = [(3, [1]), (3, [2]), (3, [3])] ∧
      last.boundary.messages = [[8], [9]] ∧
      replies.filterMap Reply.outcome? =
        [.ok (), .ok (), .error ⟨.call, 5, -1⟩, .ok ()] ∧
      replies.filterMap Reply.result? = [[0], [7, 9, 0]] := by
  decide

end Bridge

end CallGate
