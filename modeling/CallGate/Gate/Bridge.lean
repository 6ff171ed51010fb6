import CallGate.Gate.Boundary
import CallGate.Gate.Syscall

/-!
# The bridge to the boundary

Issues each operation under its number and turns a status other than zero into an error.

A `Bridge.Step` is one crossing: an operation of the bridge, or a raw crossing of its boundary
under a number of the caller's choice.
-/

namespace CallGate

/-- A boundary with the numbers of the operations. -/
structure Bridge where
  /-- What is crossed. -/
  boundary : Boundary
  /-- The number of each operation. -/
  numbering : Numbering

instance : Inhabited Bridge := ⟨⟨default, default⟩⟩

namespace Bridge

/-- The status of an operation, as an error unless it is zero. -/
def check (bridge : Bridge) (syscall : Syscall) (code : Int) : Except StatusError Unit :=
  if code = 0 then .ok ()
  else .error { syscall, number := bridge.numbering.number syscall, code }

/-- Hand over the payload of an operation. -/
def notify (bridge : Bridge) (syscall : Syscall) (payload : Bytes) :
    Except StatusError Unit × Bridge :=
  let (code, boundary) := bridge.boundary.send (bridge.numbering.number syscall) payload
  (bridge.check syscall code, { bridge with boundary })

/-- Hand over the final output. -/
def emitReturn (bridge : Bridge) (output : Bytes) : Except StatusError Unit × Bridge :=
  bridge.notify .ret output

/-- Hand over a log record in its wire form. -/
def emitLog (bridge : Bridge) (record : Bytes) : Except StatusError Unit × Bridge :=
  bridge.notify .log record

/-- Tell who gets the balance of a contract that destroyed itself. -/
def emitSelfDestruct (bridge : Bridge) (beneficiary : Address) :
    Except StatusError Unit × Bridge :=
  bridge.notify .selfDestruct beneficiary.bytes

/-- Make a nested call with a message in its wire form. Besides the outcome there is the result
buffer after the call. -/
def call (bridge : Bridge) (message result : Bytes) :
    Except StatusError Unit × Bytes × Bridge :=
  let (code, result, boundary) :=
    bridge.boundary.exchange (bridge.numbering.number .call) result message
  (bridge.check .call code, result, { bridge with boundary })

/-- One crossing. -/
inductive Step where
  /-- Hand over the final output. -/
  | ret (output : Bytes)
  /-- Hand over a log record in its wire form. -/
  | log (record : Bytes)
  /-- Tell who gets the balance of a contract that destroyed itself. -/
  | selfDestruct (beneficiary : Address)
  /-- Make a nested call with a result buffer. -/
  | call (message result : Bytes)
  /-- Hand over a payload under a number, and take the status as it is. -/
  | rawSend (number : Nat) (payload : Bytes)
  /-- Hand over a message under a number, and take the status as it is. -/
  | rawExchange (number : Nat) (message result : Bytes)
deriving DecidableEq

/-- What comes of a crossing. -/
inductive Reply where
  /-- The outcome of an operation. -/
  | outcome (outcome : Except StatusError Unit)
  /-- The outcome of a call, and the result buffer after it. -/
  | called (outcome : Except StatusError Unit) (result : Bytes)
  /-- The status of a raw crossing. -/
  | status (code : Int)
  /-- The status of a raw exchange, and the result buffer after it. -/
  | exchanged (code : Int) (result : Bytes)

/-- What comes of a crossing, and the bridge after it. -/
def step (bridge : Bridge) : Step → Reply × Bridge
  | .ret output => (bridge.emitReturn output).map .outcome id
  | .log record => (bridge.emitLog record).map .outcome id
  | .selfDestruct beneficiary => (bridge.emitSelfDestruct beneficiary).map .outcome id
  | .call message result =>
    let (outcome, result, bridge) := bridge.call message result
    (.called outcome result, bridge)
  | .rawSend number payload =>
    let (code, boundary) := bridge.boundary.send number payload
    (.status code, { bridge with boundary })
  | .rawExchange number message result =>
    let (code, result, boundary) := bridge.boundary.exchange number result message
    (.exchanged code result, { bridge with boundary })

/-- What comes of a sequence of crossings, and the bridge after the last. -/
def run (bridge : Bridge) : List Step → List Reply × Bridge
  | [] => ([], bridge)
  | step :: steps =>
    let (reply, bridge) := bridge.step step
    let (replies, bridge) := bridge.run steps
    (reply :: replies, bridge)

end Bridge

end CallGate
