import CallGate.Account
import CallGate.Gate.Bridge
import CallGate.Host.Error
import CallGate.Session

/-!
# The host of an interpreter

Serves the callbacks of an interpreter that runs in a sandbox: storage from the session, accounts
from a source, and calls, logs and self-destructions through the boundary. There is one storage
for the execution, so a slot is known by its key alone.

A `Host.Callback` is one request, or one change that the embedder makes to the session between
requests. `Host.run` serves a sequence of them.
-/

namespace CallGate

/-- The state behind an interpreter's callbacks. -/
structure Host where
  /-- What calls, logs and notifications cross. -/
  boundary : Boundary
  /-- The execution served. -/
  session : Session
  /-- Answers questions about accounts. -/
  accounts : AccountSource
  /-- The settings in use. -/
  settings : Settings

namespace Host

/-- The bridge to the boundary, under the numbers of the settings. -/
def bridge (host : Host) : Bridge :=
  ⟨host.boundary, host.settings.numbering⟩

/-- The transaction and the block that the code runs in. -/
def transaction (host : Host) : Transaction :=
  { origin := host.session.origin }

/-- The value of a storage slot; an unknown slot is zero. -/
def readSlot (host : Host) (key : Word) : Word :=
  (host.session.storage.read key).getD .zero

/-- Write a storage slot. After a self-destruction strict settings refuse it. -/
def writeSlot (host : Host) (key value : Word) : Except HostError WriteStatus × Host :=
  if host.session.isDestructed && host.settings.strictDestruct then
    (.error (.writeAfterDestruct key), host)
  else
    let (status, session) := host.session.write host.settings.statusPolicy key value
    (.ok status, { host with session })

/-- Note a self-destruction and tell the boundary. The session is destructed even if the boundary
refuses. The answer tells whether the self-destruction is the first. -/
def selfDestruct (host : Host) (beneficiary : Address) : Except HostError Bool × Host :=
  let (first, session) := host.session.markDestructed beneficiary
  let (outcome, bridge) := host.bridge.emitSelfDestruct beneficiary
  ((outcome.mapError .status).map fun _ => first,
    { host with session, boundary := bridge.boundary })

/-- Make a nested call. The result is read from a buffer of the full capacity that was all zero
before the call. -/
def call (host : Host) (message : CallMessage) : Except HostError CallResult × Host :=
  let capacity := host.settings.callCapacity
  -- A message that does not fit never reaches the boundary.
  match message.encode capacity with
  | .error error => (.error (.wire error), host)
  | .ok encoded =>
    let (outcome, result, bridge) := host.bridge.call encoded (List.replicate capacity 0)
    let host := { host with boundary := bridge.boundary }
    match outcome with
    | .error error => (.error (.status error), host)
    | .ok () =>
      ((CallResult.decode result message.gas host.settings.gasAccounting).mapError .wire, host)

/-- Make a nested call; an error counts as a failed call without gas left. -/
def callOrFailure (host : Host) (message : CallMessage) : CallResult × Host :=
  match host.call message with
  | (.ok result, host) => (result, host)
  | (.error _, host) => (.failure 0, host)

/-- Hand over a log record. -/
def emitLog (host : Host) (record : LogRecord) : Except HostError Unit × Host :=
  match record.encode host.settings.logCapacity with
  | .error error => (.error (.wire error), host)
  | .ok encoded =>
    let (outcome, bridge) := host.bridge.emitLog encoded
    (outcome.mapError .status, { host with boundary := bridge.boundary })

/-- End the execution. A successful one hands over its output first, and has no outcome if the
boundary refuses it. The boundary keeps its traffic. -/
def finish (host : Host) (success : Bool) (output : Bytes) :
    Except HostError Outcome × Boundary :=
  if success then
    let (outcome, bridge) := host.bridge.emitReturn output
    ((outcome.mapError .status).map fun _ => host.session.outcome, bridge.boundary)
  else
    (.ok host.session.outcome, host.boundary)

/-- One request of the interpreter, or one change to the session by the embedder. -/
inductive Callback where
  /-- Ask for the transaction. -/
  | transaction
  /-- Ask about an account, and copy its code from an offset on into a buffer. -/
  | account (address : Address) (offset : Nat) (buffer : Bytes)
  /-- Ask for the settings. -/
  | settings
  /-- Read a storage slot. -/
  | read (key : Word)
  /-- Write a storage slot. -/
  | write (key value : Word)
  /-- Note, as the embedder, a value that a slot has outside this execution. -/
  | observe (key value : Word)
  /-- Destroy the contract in favour of a beneficiary. -/
  | selfDestruct (beneficiary : Address)
  /-- Mark, as the embedder, the session as destructed. -/
  | markDestructed (beneficiary : Address)
  /-- Make a nested call. -/
  | call (message : CallMessage)
  /-- Make a nested call that cannot fail. -/
  | callOrFailure (message : CallMessage)
  /-- Hand over a log record. -/
  | log (record : LogRecord)
deriving DecidableEq

/-- What a callback answers. -/
inductive Reply where
  | transaction (transaction : Transaction)
  | account (report : AccountReport)
  | settings (settings : Settings)
  /-- The value of a slot. -/
  | value (value : Word)
  /-- The effect of a write. -/
  | status (status : WriteStatus)
  /-- Whether a self-destruction was the first. -/
  | first (first : Bool)
  | result (result : CallResult)
  /-- Nothing. -/
  | done
  | error (error : HostError)
deriving DecidableEq

/-- An answer that may be an error. -/
def Reply.ofExcept {α : Type} (reply : α → Reply) : Except HostError α → Reply
  | .ok answer => reply answer
  | .error cause => .error cause

/-- The answer to a callback and the host after it. -/
def step (host : Host) : Callback → Reply × Host
  | .transaction => (.transaction host.transaction, host)
  | .account address offset buffer =>
    (.account (host.accounts.report address offset buffer), host)
  | .settings => (.settings host.settings, host)
  | .read key => (.value (host.readSlot key), host)
  | .write key value => (host.writeSlot key value).map (.ofExcept .status) id
  | .observe key value => (.done, { host with session := host.session.observe key value })
  | .selfDestruct beneficiary => (host.selfDestruct beneficiary).map (.ofExcept .first) id
  | .markDestructed beneficiary =>
    let (first, session) := host.session.markDestructed beneficiary
    (.first first, { host with session })
  | .call message => (host.call message).map (.ofExcept .result) id
  | .callOrFailure message => (host.callOrFailure message).map .result id
  | .log record => (host.emitLog record).map (.ofExcept fun _ => .done) id

/-- The answers to a sequence of callbacks and the host after the last. -/
def run (host : Host) : List Callback → List Reply × Host
  | [] => ([], host)
  | callback :: callbacks =>
    let (reply, host) := host.step callback
    let (replies, host) := host.run callbacks
    (reply :: replies, host)

end Host

end CallGate
