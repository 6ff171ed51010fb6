import CallGate.Wire.Reader

/-!
# Kinds of calls

The kind of a call is the first byte of its message; the flags are a set of bits, of which one is
known: a static call must not change state.
-/

namespace CallGate

/-- How code is entered. -/
inductive CallKind where
  /-- A plain call. -/
  | call
  /-- Foreign code in the caller's place, with the caller's sender and value. -/
  | delegateCall
  /-- Foreign code in the caller's place. -/
  | callCode
  /-- A new contract at an address that depends on its creator's history. -/
  | create
  /-- A new contract at an address that depends on a salt. -/
  | create2
deriving DecidableEq, Repr, Inhabited

namespace CallKind

/-- The byte that stands for a kind. -/
def byte : CallKind → UInt8
  | .call => 0
  | .delegateCall => 1
  | .callCode => 2
  | .create => 3
  | .create2 => 4

/-- The kind that a byte stands for. -/
def ofByte? : UInt8 → Option CallKind
  | 0 => some .call
  | 1 => some .delegateCall
  | 2 => some .callCode
  | 3 => some .create
  | 4 => some .create2
  | _ => none

/-- The name of a kind, in lower case. -/
def name : CallKind → String
  | .call => "call"
  | .delegateCall => "delegatecall"
  | .callCode => "callcode"
  | .create => "create"
  | .create2 => "create2"

/-- All kinds, in the order of their bytes. -/
def all : List CallKind :=
  [.call, .delegateCall, .callCode, .create, .create2]

/-- Whether a call of this kind makes a new contract. -/
def isCreate : CallKind → Bool
  | .create | .create2 => true
  | _ => false

/-- Read a kind. A byte that stands for none is refused before anything else is read. -/
def read : Read CallKind := do
  let byte ← Reader.byte
  match ofByte? byte with
  | some kind => return kind
  | none => throw (.invalidKind byte)

/-- Each kind is found by its own byte. -/
@[simp]
theorem ofByte?_byte (kind : CallKind) : ofByte? kind.byte = some kind := by
  cases kind <;> rfl

end CallKind

/-- The flags of a call. -/
structure CallFlags where
  /-- One bit a flag. -/
  bits : UInt32
deriving DecidableEq, Repr, Inhabited

namespace CallFlags

/-- No flag. -/
def none : CallFlags := ⟨0⟩

/-- The flag of a call that must not change state. -/
def static : CallFlags := ⟨1⟩

/-- The flags of either set. -/
def union (first second : CallFlags) : CallFlags :=
  ⟨first.bits ||| second.bits⟩

/-- Whether all flags of the second set are in the first. -/
def contains (flags other : CallFlags) : Bool :=
  flags.bits &&& other.bits == other.bits

/-- Whether the call must not change state. -/
def isStatic (flags : CallFlags) : Bool :=
  flags.contains static

end CallFlags

end CallGate
