import CallGate.Message.Call
import CallGate.Message.Result

/-!
# Responders

The other side of the gate, as far as calls go. A responder has a memory of its own: what it answers
to a message may depend on what it remembers, and it may remember what it was asked.
-/

namespace CallGate

/-- The other side of the gate, with what it remembers. -/
structure Responder where
  /-- What it can remember. -/
  Memory : Type
  /-- What it remembers now. -/
  memory : Memory
  /-- The answer to a message, and what is remembered after it. -/
  respond : Memory → Bytes → Bytes × Memory

namespace Responder

/-- Ask a responder: its answer to a message, and the responder after it. -/
def ask (responder : Responder) (message : Bytes) : Bytes × Responder :=
  let (answer, memory) := responder.respond responder.memory message
  (answer, { responder with memory })

/-- A responder that remembers nothing. -/
def stateless (answer : Bytes → Bytes) : Responder where
  Memory := Unit
  memory := ()
  respond _ message := (answer message, ())

/-- Answers a call with its own input and destination, and nothing to what is no call. The buffer
of the answer has the given capacity. -/
def echo (gas : Option UInt64) (capacity : Nat) : Responder := .stateless fun message =>
  match CallMessage.decode message with
  | .ok call =>
    match CallResult.encode call.input call.destination gas capacity with
    | .ok answer => answer
    | .error _ => []
  | .error _ => []

end Responder

end CallGate
