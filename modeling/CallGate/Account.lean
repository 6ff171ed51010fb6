import CallGate.Keccak
import CallGate.OrderedMap

/-!
# Accounts

What code can ask about accounts: whether there is one at an address, its balance, its code, and
the hash of its code. An `AccountSource` answers these questions. Code is copied piece by piece
into buffers.
-/

namespace CallGate

/-- Answers questions about accounts. -/
structure AccountSource where
  /-- Whether there is an account at an address. -/
  isPresent : Address → Bool
  /-- The balance of an account, an unsigned 256-bit number. -/
  balance : Address → Word
  /-- The code of an account. -/
  code : Address → Bytes
  /-- The hash of the code of an account. -/
  codeHash : Address → Word

/-- All that code can learn about an account, after a copy of its code into a buffer. -/
structure AccountReport where
  /-- Whether there is an account. -/
  isPresent : Bool
  /-- The balance, an unsigned 256-bit number. -/
  balance : Word
  /-- The code. -/
  code : Bytes
  /-- Size of the code. -/
  codeSize : Nat
  /-- The hash of the code. -/
  codeHash : Word
  /-- Number of bytes of code copied. -/
  copied : Nat
  /-- The buffer after the copy. -/
  buffer : Bytes
deriving DecidableEq

namespace AccountSource

/-- Every account is there, without balance and code, and the hash of its code is zero. -/
def blank : AccountSource where
  isPresent _ := true
  balance _ := .zero
  code _ := []
  codeHash _ := .zero

/-- Size of the code of an account. -/
def codeSize (source : AccountSource) (address : Address) : Nat :=
  (source.code address).length

/-- Copy a code from an offset on to the front of a buffer: as much as there is, and as much as
fits. The number of bytes copied, and the buffer after it. -/
def copyWindow (code : Bytes) (offset : Nat) (buffer : Bytes) : Nat × Bytes :=
  let count := min buffer.length (code.length - offset)
  (count, (code.drop offset).take count ++ buffer.drop count)

/-- Copy the code of an account from an offset on to the front of a buffer. -/
def copyCode (source : AccountSource) (address : Address) (offset : Nat) (buffer : Bytes) :
    Nat × Bytes :=
  copyWindow (source.code address) offset buffer

/-- Ask all there is to know about an account, and copy its code from an offset on to the front of
a buffer. -/
def report (source : AccountSource) (address : Address) (offset : Nat) (buffer : Bytes) :
    AccountReport :=
  let (copied, buffer) := source.copyCode address offset buffer
  { isPresent := source.isPresent address, balance := source.balance address,
    code := source.code address, codeSize := source.codeSize address,
    codeHash := source.codeHash address, copied, buffer }

end AccountSource

/-- An account. -/
structure Account where
  /-- The balance, an unsigned 256-bit number. -/
  balance : Word
  /-- The code. -/
  code : Bytes
  /-- The hash of the code. -/
  codeHash : Word
deriving DecidableEq

/-- The hash of empty code. -/
def emptyCodeHash : Word :=
  FixedBytes.ofNat 0xC5D2460186F7233C927E7DB2DCC703C0E500B653CA82273B7BFAD8045D85A470

/-- An account with a balance and a code. Empty code has a hash that is known beforehand. -/
def Account.ofCode (balance : Word) (code : Bytes) : Account :=
  { balance, code, codeHash := if code.isEmpty then emptyCodeHash else Keccak.hash code }

/-- Accounts by their addresses. -/
abbrev AccountBook := OrderedMap Address Account

namespace AccountBook

/-- Put an account at an address, in place of the account there so far. -/
def put (book : AccountBook) (address : Address) (balance : Word) (code : Bytes) : AccountBook :=
  book.insert address (.ofCode balance code)

/-- The answers of a book. Where there is no account the balance is zero, the code is empty, and
the hash of the code is zero. -/
def source (book : AccountBook) : AccountSource where
  isPresent address := book.contains address
  balance address := (book.find? address).elim .zero Account.balance
  code address := (book.find? address).elim [] Account.code
  codeHash address := (book.find? address).elim .zero Account.codeHash

end AccountBook

end CallGate
