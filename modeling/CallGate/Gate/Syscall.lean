import CallGate.Decimal

/-!
# Syscalls

The four operations with which an interpreter leaves its sandbox, and the numbers they go by.

* `duplicate?_eq_none_iff`: no number is reported as a duplicate exactly when all differ.
-/

namespace CallGate

/-- An operation that crosses the gate. -/
inductive Syscall where
  /-- Hand over the final output. -/
  | ret
  /-- Hand over a log record. -/
  | log
  /-- Tell that a contract destroyed itself. -/
  | selfDestruct
  /-- Make a nested call. -/
  | call
deriving DecidableEq, Repr

namespace Syscall

/-- All operations, in the order in which they are numbered. -/
def all : List Syscall :=
  [.ret, .log, .selfDestruct, .call]

/-- The name of an operation. -/
def name : Syscall → String
  | .ret => "return"
  | .log => "log"
  | .selfDestruct => "selfdestruct"
  | .call => "call"

/-- The number of an operation unless another one is chosen. -/
def defaultNumber : Syscall → Nat
  | .ret => 3075
  | .log => 3076
  | .selfDestruct => 3077
  | .call => 3078

/-- There is no fifth operation. -/
theorem mem_all (syscall : Syscall) : syscall ∈ all := by
  cases syscall <;> decide

end Syscall

/-- The number of each operation. -/
structure Numbering where
  ret : Nat := Syscall.ret.defaultNumber
  log : Nat := Syscall.log.defaultNumber
  selfDestruct : Nat := Syscall.selfDestruct.defaultNumber
  call : Nat := Syscall.call.defaultNumber
deriving DecidableEq, Repr, Inhabited

namespace Numbering

/-- The number of an operation. -/
def number (numbering : Numbering) : Syscall → Nat
  | .ret => numbering.ret
  | .log => numbering.log
  | .selfDestruct => numbering.selfDestruct
  | .call => numbering.call

/-- All numbers, in the order of their operations. -/
def numbers (numbering : Numbering) : List Nat :=
  Syscall.all.map numbering.number

/-- The first element of a list that occurs again after it. -/
def firstRepeated? : List Nat → Option Nat
  | [] => none
  | n :: rest => if n ∈ rest then some n else firstRepeated? rest

/-- The first number that belongs to a later operation too. -/
def duplicate? (numbering : Numbering) : Option Nat :=
  firstRepeated? numbering.numbers

/-- A search that finds no repetition tells that all numbers differ. -/
theorem firstRepeated?_eq_none_iff (numbers : List Nat) :
    firstRepeated? numbers = none ↔ numbers.Nodup := by
  induction numbers with
  | nil => simp [firstRepeated?]
  | cons n rest ih =>
    rw [firstRepeated?, List.nodup_cons]
    split <;> simp_all

/-- No number is reported as a duplicate exactly when all differ. -/
theorem duplicate?_eq_none_iff (numbering : Numbering) :
    numbering.duplicate? = none ↔ numbering.numbers.Nodup :=
  firstRepeated?_eq_none_iff _

end Numbering

/-- A syscall came back with a status other than zero. -/
structure StatusError where
  /-- The operation. -/
  syscall : Syscall
  /-- The number under which it was issued. -/
  number : Nat
  /-- The status that came back. -/
  code : Int
deriving DecidableEq, Repr

/-- The error in words. -/
def StatusError.message (error : StatusError) : String :=
  error.syscall.name ++ " syscall (#" ++ Decimal.text error.number ++ ") failed with status "
    ++ Decimal.signedText error.code

end CallGate
