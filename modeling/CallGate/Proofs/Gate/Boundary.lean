import CallGate.Gate.Bridge
import CallGate.Proofs.OrderedMap

/-!
# What a boundary takes

A number that is set to fail changes nothing at a boundary. Under any other number a payload or a
message is kept behind those before it. The responder is asked each message that is kept, once, and
nothing else changes.

* `Responder.after`, `Boundary.answer`: what the responder is after messages, and what it answers.
* `Boundary.send_of_none`, `Boundary.exchange_of_none`: what is taken; with `_of_some` what is
  refused.
* `Bridge.notify_status`: what an operation that hands over a payload answers.
-/

namespace CallGate

namespace Responder

/-- The answer to a message. -/
def answer (responder : Responder) (message : Bytes) : Bytes :=
  (responder.respond responder.memory message).1

/-- The responder after it was asked messages, each of them once and one after the other. -/
def after (responder : Responder) (messages : List Bytes) : Responder :=
  { responder with
    memory := messages.foldl (fun memory message => (responder.respond memory message).2)
      responder.memory }

/-- Asking gives the answer, and asks once. -/
theorem ask_eq (responder : Responder) (message : Bytes) :
    responder.ask message = (responder.answer message, responder.after [message]) := rfl

/-- A responder that was asked nothing is as it was. -/
theorem after_nil (responder : Responder) : responder.after [] = responder := rfl

/-- Messages can be asked in two parts. -/
theorem after_after (responder : Responder) (first second : List Bytes) :
    (responder.after first).after second = responder.after (first ++ second) := by
  rw [after, after, after, List.foldl_append]

end Responder

namespace Boundary

/-- The answer that a message gets, which is empty without a responder. -/
def answer (boundary : Boundary) (message : Bytes) : Bytes :=
  boundary.responder.elim [] fun responder => responder.answer message

/-- The boundary after it has taken a payload. -/
def keepPayload (boundary : Boundary) (number : Nat) (payload : Bytes) : Boundary :=
  { boundary with sent := boundary.sent ++ [(number, payload)] }

/-- The boundary after it has taken a call message, and has asked the responder once. -/
def keepMessage (boundary : Boundary) (message : Bytes) : Boundary :=
  { boundary with
    messages := boundary.messages ++ [message]
    responder := boundary.responder.map fun responder => responder.after [message] }

/-- A boundary after it has taken payloads and call messages, and has asked the responder once for
each of the messages. -/
def keep (boundary : Boundary) (payloads : List (Nat × Bytes)) (messages : List Bytes) :
    Boundary :=
  { boundary with
    sent := boundary.sent ++ payloads
    messages := boundary.messages ++ messages
    responder := boundary.responder.map fun responder => responder.after messages }

/-- All statuses that are set for numbers are errors. -/
def FailsWithErrors (boundary : Boundary) : Prop :=
  ∀ failure ∈ boundary.failures.entries, failure.2 ≠ 0

instance (boundary : Boundary) : Decidable boundary.FailsWithErrors :=
  inferInstanceAs (Decidable (∀ failure ∈ boundary.failures.entries, failure.2 ≠ 0))

/-- Asking the responder gives the answer, and changes the responder alone. -/
theorem ask_eq (boundary : Boundary) (message : Bytes) :
    boundary.ask message = (boundary.answer message, { boundary with
      responder := boundary.responder.map fun responder => responder.after [message] }) := by
  obtain ⟨sent, messages, responder, failures⟩ := boundary
  cases responder with
  | none => rfl
  | some responder => rfl

/-- Without messages the responder is as it was. -/
theorem map_after_nil (responder : Option Responder) :
    responder.map (fun responder => responder.after []) = responder := by
  simp only [Responder.after_nil]
  exact Option.map_id'

/-- A boundary that has taken nothing is as it was. -/
theorem keep_nil (boundary : Boundary) : boundary.keep [] [] = boundary := by
  rw [keep, List.append_nil, List.append_nil, map_after_nil]

/-- What is taken in two parts is taken in one. -/
theorem keep_keep (boundary : Boundary) (first second : List (Nat × Bytes))
    (before after : List Bytes) :
    (boundary.keep first before).keep second after =
      boundary.keep (first ++ second) (before ++ after) := by
  simp only [keep, List.append_assoc, Option.map_map, Function.comp_def, Responder.after_after]

/-- After messages the responder answers what it answers then. -/
theorem answer_keep (boundary : Boundary) (payloads : List (Nat × Bytes)) (messages : List Bytes)
    (message : Bytes) :
    (boundary.keep payloads messages).answer message =
      boundary.responder.elim [] fun responder => (responder.after messages).answer message := by
  obtain ⟨sent, before, responder, failures⟩ := boundary
  cases responder with
  | none => rfl
  | some responder => rfl

/-- To keep a payload is to keep one payload and no message. -/
theorem keepPayload_eq_keep (boundary : Boundary) (number : Nat) (payload : Bytes) :
    boundary.keepPayload number payload = boundary.keep [(number, payload)] [] := by
  rw [keepPayload, keep, List.append_nil, map_after_nil]

/-- To keep a message is to keep one message and no payload, and to have the responder asked
once. -/
theorem keepMessage_eq_keep (boundary : Boundary) (message : Bytes) :
    boundary.keepMessage message = boundary.keep [] [message] := by
  rw [keepMessage, keep, List.append_nil]

/-- A number that is set to fail has its status, and keeps nothing. -/
theorem send_of_some {boundary : Boundary} {number : Nat} {code : Int}
    (h : boundary.failures.find? number = some code) (payload : Bytes) :
    boundary.send number payload = (code, boundary) := by
  rw [send, h]

/-- Under any other number the payload is kept. -/
theorem send_of_none {boundary : Boundary} {number : Nat}
    (h : boundary.failures.find? number = none) (payload : Bytes) :
    boundary.send number payload = (0, boundary.keepPayload number payload) := by
  rw [send, h]
  rfl

/-- A call that is set to fail has its status, asks no responder and leaves the result as it was. -/
theorem exchange_of_some {boundary : Boundary} {number : Nat} {code : Int}
    (h : boundary.failures.find? number = some code) (result message : Bytes) :
    boundary.exchange number result message = (code, result, boundary) := by
  rw [exchange, h]

/-- Any other call is kept and answered, and the answer is put into the result if it fits. -/
theorem exchange_of_none {boundary : Boundary} {number : Nat}
    (h : boundary.failures.find? number = none) (result message : Bytes) :
    boundary.exchange number result message =
      if (boundary.answer message).length ≤ result.length then
        (0, overwrite result (boundary.answer message), boundary.keepMessage message)
      else (answerTooLong, result, boundary.keepMessage message) := by
  rw [exchange, h]
  simp only [ask_eq]
  rfl

/-- A status that is set is no success. -/
theorem FailsWithErrors.ne_zero {boundary : Boundary} (h : boundary.FailsWithErrors)
    {number : Nat} {code : Int} (hfind : boundary.failures.find? number = some code) :
    code ≠ 0 :=
  h (number, code) (OrderedMap.mem_of_valueAt? hfind)

end Boundary

namespace Bridge

/-- The status zero is success. -/
theorem check_zero (bridge : Bridge) (syscall : Syscall) : bridge.check syscall 0 = .ok () := rfl

/-- Any other status is an error with the operation, its number and the status. -/
theorem check_of_ne {code : Int} (h : code ≠ 0) (bridge : Bridge) (syscall : Syscall) :
    bridge.check syscall code =
      .error ⟨syscall, bridge.numbering.number syscall, code⟩ := by
  rw [check, if_neg h]

/-- An operation that is set to fail is checked with its status, and keeps nothing. -/
theorem notify_of_some {bridge : Bridge} {syscall : Syscall} {code : Int}
    (h : bridge.boundary.failures.find? (bridge.numbering.number syscall) = some code)
    (payload : Bytes) : bridge.notify syscall payload = (bridge.check syscall code, bridge) := by
  rw [notify, Boundary.send_of_some h]

/-- Any other operation succeeds, and its payload is kept under its number. -/
theorem notify_of_none {bridge : Bridge} {syscall : Syscall}
    (h : bridge.boundary.failures.find? (bridge.numbering.number syscall) = none)
    (payload : Bytes) :
    bridge.notify syscall payload =
      (.ok (), { bridge with
        boundary := bridge.boundary.keepPayload (bridge.numbering.number syscall) payload }) := by
  rw [notify, Boundary.send_of_none h]
  rfl

/-- A payload is answered with the status that is set for its operation, or with success. -/
theorem notify_status (bridge : Bridge) (syscall : Syscall) (payload : Bytes) :
    (bridge.notify syscall payload).1 = bridge.check syscall
      ((bridge.boundary.failures.find? (bridge.numbering.number syscall)).getD 0) := by
  cases hfind : bridge.boundary.failures.find? (bridge.numbering.number syscall) with
  | some code => rw [notify_of_some hfind, Option.getD_some]
  | none =>
    rw [notify_of_none hfind]
    rfl

end Bridge

end CallGate
