import CallGate.Storage.Overlay

/-!
# Sessions

The state of one execution besides its traffic: who started the transaction, the storage, and
whether the contract destroyed itself. A session is active until the first self-destruction; the
beneficiary of that one is kept.
-/

namespace CallGate

/-- The transaction and the block that code runs in. A sandbox knows the origin alone; all else is
zero. -/
structure Transaction where
  /-- The account that started the transaction. -/
  origin : Address
  gasPrice : Word := .zero
  coinbase : Address := .zero
  blockNumber : Nat := 0
  blockTimestamp : Nat := 0
  blockGasLimit : Nat := 0
  prevRandao : Word := .zero
  chainId : Word := .zero
  baseFee : Word := .zero
deriving DecidableEq

/-- Where a session is in its life. -/
inductive SessionState where
  | active
  | destructed
deriving DecidableEq, Repr

/-- One execution. -/
structure Session where
  /-- The account that started the transaction. -/
  origin : Address
  /-- The storage that the execution sees. -/
  storage : Overlay := .empty
  /-- The beneficiary of the first self-destruction. -/
  beneficiary : Option Address := none
deriving DecidableEq

/-- What an execution leaves behind. -/
structure Outcome where
  /-- Storage values observed or written. -/
  observed : Slots
  /-- Storage values written. -/
  written : Slots
  /-- Whether the contract destroyed itself. -/
  destructed : Bool
  /-- The beneficiary of the first self-destruction. -/
  beneficiary : Option Address
deriving DecidableEq

namespace Session

/-- Where the session is in its life. -/
def state (session : Session) : SessionState :=
  if session.beneficiary.isSome then .destructed else .active

/-- Whether the contract destroyed itself. -/
def isDestructed (session : Session) : Bool :=
  session.state = .destructed

/-- Note a self-destruction, and tell whether it is the first. -/
def markDestructed (session : Session) (beneficiary : Address) : Bool × Session :=
  if session.beneficiary.isSome then (false, session)
  else (true, { session with beneficiary := some beneficiary })

/-- Note a value that a slot has outside this execution. -/
def observe (session : Session) (key value : Word) : Session :=
  { session with storage := session.storage.observe key value }

/-- Write a slot, and report the write's effect. -/
def write (session : Session) (policy : StatusPolicy) (key value : Word) :
    WriteStatus × Session :=
  let (status, storage) := session.storage.write policy key value
  (status, { session with storage })

/-- What the session leaves behind. -/
def outcome (session : Session) : Outcome where
  observed := session.storage.observed
  written := session.storage.written
  destructed := session.isDestructed
  beneficiary := session.beneficiary

end Session

end CallGate
