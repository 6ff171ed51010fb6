import CallGate.Message.Kind
import CallGate.Wire.Field

/-!
# Program records

The code that a sandbox is started with, and its input. On the wire a record is its kind, flags,
depth, sender, destination, and the code and the input, each after its length. All but code and
input take 57 bytes.
-/

namespace CallGate

/-- Code to run with its input. -/
structure Program where
  /-- How the code is entered. -/
  kind : CallKind
  /-- The flags of the call. -/
  flags : CallFlags
  /-- How many calls surround this one. -/
  depth : UInt32
  /-- The account that calls. -/
  sender : Address
  /-- The account called. -/
  destination : Address
  /-- The code. -/
  code : Bytes
  /-- The input of the code. -/
  input : Bytes
deriving DecidableEq, Inhabited

namespace Program

/-- Size of a record with empty code and input. -/
def fixedLength : Nat := 57

/-- Size of a record on the wire. -/
def encodedLength (program : Program) : Nat :=
  fixedLength + program.code.length + program.input.length

/-- Whether the program must not change state. -/
def isStatic (program : Program) : Bool :=
  program.flags.isStatic

/-- The program that makes a contract. Its code is what runs, so it has no input. -/
def creation (sender : Address) (code : Bytes) : Program :=
  { kind := .create, flags := .none, depth := 0, sender, destination := .zero, code, input := [] }

/-- The program that runs a contract's code on an input. -/
def invocation (sender destination : Address) (code input : Bytes) : Program :=
  { kind := .call, flags := .none, depth := 0, sender, destination, code, input }

/-- The fields of a record in the order of the wire. -/
def fields (program : Program) : List Field :=
  [.byte program.kind.byte, .u32 program.flags.bits, .u32 program.depth, .address program.sender,
    .address program.destination, .counted program.code, .counted program.input]

/-- Write a record into a buffer of the given capacity. -/
def encode (program : Program) (capacity : Nat) : Except WireError Bytes :=
  Writer.build capacity do
    Writer.ensure program.encodedLength
    Field.putAll program.fields

/-- Read a record and nothing after it. -/
def read : Read Program := do
  let kind ← CallKind.read
  let flags ← Reader.u32
  let depth ← Reader.u32
  let sender ← Reader.address
  let destination ← Reader.address
  let code ← Reader.counted
  let input ← Reader.counted
  Reader.finish .program
  return { kind, flags := ⟨flags⟩, depth, sender, destination, code, input }

/-- The record that a byte string is. -/
def decode (bytes : Bytes) : Except WireError Program :=
  Reader.run read bytes

end Program

end CallGate
