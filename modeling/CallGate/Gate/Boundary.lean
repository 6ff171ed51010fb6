import CallGate.Gate.Responder
import CallGate.OrderedMap

/-!
# The boundary of a sandbox

A boundary takes payloads and call messages under syscall numbers and reports a status, zero for
success. It keeps what it took, in order. A number can be set to fail: what arrives under it is
answered with the status set for it and not kept.
-/

namespace CallGate

/-- A boundary with the traffic it has taken. -/
structure Boundary where
  /-- The payloads taken, each with its number, oldest first. -/
  sent : List (Nat × Bytes) := []
  /-- The call messages taken, oldest first. -/
  messages : List Bytes := []
  /-- Answers call messages; without it every answer is empty. -/
  responder : Option Responder := none
  /-- The numbers set to fail, with their statuses. -/
  failures : OrderedMap Nat Int := .empty

instance : Inhabited Boundary := ⟨{}⟩

namespace Boundary

/-- The status of an answer that does not fit the result buffer. -/
def answerTooLong : Int := -1

/-- Set a number to fail with a status. -/
def failWith (boundary : Boundary) (number : Nat) (code : Int) : Boundary :=
  { boundary with failures := boundary.failures.insert number code }

/-- The payloads taken under a number, oldest first. -/
def sentTo (boundary : Boundary) (number : Nat) : List Bytes :=
  (boundary.sent.filter fun entry => entry.1 == number).map Prod.snd

/-- Ask the responder: its answer to a message, and the boundary with the responder after it. -/
def ask (boundary : Boundary) (message : Bytes) : Bytes × Boundary :=
  match boundary.responder with
  | some responder =>
    let (answer, responder) := responder.ask message
    (answer, { boundary with responder := some responder })
  | none => ([], boundary)

/-- Hand over a payload. -/
def send (boundary : Boundary) (number : Nat) (payload : Bytes) : Int × Boundary :=
  match boundary.failures.find? number with
  | some code => (code, boundary)
  | none => (0, { boundary with sent := boundary.sent ++ [(number, payload)] })

/-- The front of a buffer replaced by a byte string of at most its length. -/
def overwrite (buffer bytes : Bytes) : Bytes :=
  bytes ++ buffer.drop bytes.length

/-- Hand over a call message. The answer goes to the front of the result buffer. An answer that
does not fit changes nothing in the buffer. -/
def exchange (boundary : Boundary) (number : Nat) (result message : Bytes) :
    Int × Bytes × Boundary :=
  match boundary.failures.find? number with
  | some code => (code, result, boundary)
  | none =>
    -- The message counts as taken even if its answer does not fit.
    let boundary := { boundary with messages := boundary.messages ++ [message] }
    let (answer, boundary) := boundary.ask message
    if answer.length ≤ result.length then (0, overwrite result answer, boundary)
    else (answerTooLong, result, boundary)

/-- The numbers set to fail, for diagnostics. -/
def failuresText (boundary : Boundary) : String :=
  let entry (failure : Nat × Int) :=
    Decimal.text failure.1 ++ ": " ++ Decimal.signedText failure.2
  "\x7b" ++ ", ".intercalate (boundary.failures.entries.map entry) ++ "\x7d"

/-- The amount of traffic and the configuration in one line, for diagnostics. -/
def summary (boundary : Boundary) : String :=
  "RecordingBoundary \x7b sent: " ++ Decimal.text boundary.sent.length
    ++ ", messages: " ++ Decimal.text boundary.messages.length
    ++ ", responder: " ++ (if boundary.responder.isSome then "true" else "false")
    ++ ", failures: " ++ boundary.failuresText ++ " \x7d"

end Boundary

end CallGate
