import CallGate.Wire.Field

/-!
# Call results

What the host answers to a call. On the wire an answer is the length of the output as a signed
number, the output, the address of a created contract, and, where the host accounts for gas, the
gas left. Bytes after these fields are ignored, so a whole result buffer can be read.
-/

namespace CallGate

/-- Whether a call was carried out. -/
inductive CallStatus where
  | success
  | failure
deriving DecidableEq, Repr

/-- Where the gas left after a call is taken from. -/
inductive GasAccounting where
  /-- The gas of the request. -/
  | passThrough
  /-- A number after the created address. -/
  | trailer
deriving DecidableEq, Repr, Inhabited

/-- The result of a nested call. -/
structure CallResult where
  /-- Whether the call was carried out. -/
  status : CallStatus
  /-- The gas left after the call. -/
  gasLeft : UInt64
  /-- What the call returned. -/
  output : Bytes
  /-- The address of the contract that the call made, zero if it made none. -/
  created : Address
deriving DecidableEq

/-- The largest length that an output can have on the wire. -/
def maxOutputLength : Nat := 0x7FFFFFFF

namespace CallResult

/-- The result of a call that was carried out. -/
def success (gasLeft : UInt64) (output : Bytes) (created : Address) : CallResult :=
  { status := .success, gasLeft, output, created }

/-- The result of a call that was not carried out. -/
def failure (gasLeft : UInt64) : CallResult :=
  { status := .failure, gasLeft, output := [], created := .zero }

/-- Whether the call was carried out. -/
def isSuccess (result : CallResult) : Bool :=
  result.status = .success

/-- Size of an answer with empty output and no gas. -/
def fixedLength : Nat := 24

/-- Size of an answer on the wire. -/
def encodedLength (output : Bytes) (gas : Option UInt64) : Nat :=
  fixedLength + output.length + if gas.isSome then 8 else 0

/-- The fields of an answer in the order of the wire. -/
def fields (output : Bytes) (created : Address) (gas : Option UInt64) : List Field :=
  [.i32 (Int32.ofNat output.length), .raw output, .address created]
    ++ (gas.map Field.u64).toList

/-- Write an answer into a buffer of the given capacity. -/
def encode (output : Bytes) (created : Address) (gas : Option UInt64) (capacity : Nat) :
    Except WireError Bytes :=
  Writer.build capacity do
    if maxOutputLength < output.length then
      throw (.bufferOverflow output.length maxOutputLength)
    Writer.ensure (encodedLength output gas)
    Field.putAll (fields output created gas)

/-- A read whose missing bytes make the answer malformed. -/
def whole {α : Type} (read : Read α) : Read α := fun reader =>
  match read reader with
  | .error (.truncated offset wanted available) reader =>
    .error (.malformedResult (.missing wanted offset available)) reader
  | result => result

/-- Read an answer to a request that had this much gas. -/
def read (requestGas : UInt64) (accounting : GasAccounting) : Read CallResult := do
  let declared := (← whole Reader.i32).toInt
  if declared < 0 then
    throw (.malformedResult (.negativeLength declared))
  let length := declared.toNat
  let available := (← get).remaining
  if available < length then
    throw (.malformedResult (.outputTooLong length available))
  let output ← Reader.take length
  let created ← whole Reader.address
  let gasLeft ← match accounting with
    | .passThrough => pure requestGas
    | .trailer => whole Reader.u64
  return success gasLeft output created

/-- The result that a byte string begins with, for a request that had this much gas. -/
def decode (bytes : Bytes) (requestGas : UInt64) (accounting : GasAccounting) :
    Except WireError CallResult :=
  Reader.run (read requestGas accounting) bytes

end CallResult

end CallGate
