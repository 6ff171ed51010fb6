import CallGate.Gate.Syscall
import CallGate.Message.Call
import CallGate.Message.Result
import CallGate.Message.Log
import CallGate.Storage.Status

/-!
# Settings of a host

Buffer capacities, the accounting of gas, the reporting of writes, and the numbers of the
operations. Settings are checked before they are used: each buffer must hold an empty message and
must not be too large to set aside, and no two operations may share a number.
-/

namespace CallGate

/-- The settings of a host. -/
structure Settings where
  /-- Capacity of the buffers for call messages and call results. -/
  callCapacity : Nat := 10240
  /-- Capacity of the buffer for log records. -/
  logCapacity : Nat := 2048
  /-- Where the gas left after a call is taken from. -/
  gasAccounting : GasAccounting := .passThrough
  /-- How storage writes are reported. -/
  statusPolicy : StatusPolicy := .byEffect
  /-- Whether storage writes after a self-destruction are refused. -/
  strictDestruct : Bool := false
  /-- The number of each operation. -/
  numbering : Numbering := {}
deriving DecidableEq, Repr, Inhabited

/-- The buffers whose capacities are set. -/
inductive Buffer where
  /-- The buffers for call messages and call results. -/
  | call
  /-- The buffer for log records. -/
  | log
deriving DecidableEq, Repr

namespace Buffer

/-- The name of the capacity of a buffer. -/
def settingName : Buffer → String
  | .call => "call_buffer_capacity"
  | .log => "log_buffer_capacity"

/-- The size of the largest empty message that the buffer must hold. -/
def minimum : Buffer → Nat
  | .call => max CallMessage.fixedLength CallResult.fixedLength
  | .log => LogRecord.fixedLength

/-- The largest capacity of any buffer: 16 MiB. -/
def maximum : Nat := 16 * 1024 * 1024

end Buffer

/-- Why settings cannot be used. -/
inductive SettingsFault where
  /-- A buffer is too large to set aside. -/
  | aboveMaximum (buffer : Buffer) (capacity : Nat)
  /-- A buffer cannot hold an empty message. -/
  | belowMinimum (buffer : Buffer) (capacity : Nat)
  /-- Two operations share a number. -/
  | repeatedNumber (number : Nat)
  /-- The document is not TOML, or a setting has a value of the wrong type. -/
  | unreadable
  /-- A setting has a number that a document cannot hold. -/
  | unwritable
deriving DecidableEq, Repr

/-- The fault in words. -/
def SettingsFault.message : SettingsFault → String
  | .aboveMaximum buffer capacity =>
    buffer.settingName ++ " " ++ Decimal.text capacity ++ " exceeds the maximum of "
      ++ Decimal.text Buffer.maximum
  | .belowMinimum buffer capacity =>
    buffer.settingName ++ " " ++ Decimal.text capacity ++ " is below the minimum of "
      ++ Decimal.text buffer.minimum
  | .repeatedNumber number =>
    "syscall number " ++ Decimal.text number ++ " is assigned more than once"
  | .unreadable => "the document cannot be read"
  | .unwritable => "a number is too large for the document"

namespace Settings

/-- The capacity of a buffer. -/
def capacity (settings : Settings) : Buffer → Nat
  | .call => settings.callCapacity
  | .log => settings.logCapacity

/-- Refuse a buffer that is too large to set aside. -/
def checkMaximum (settings : Settings) (buffer : Buffer) : Except SettingsFault Unit :=
  if settings.capacity buffer ≤ Buffer.maximum then .ok ()
  else .error (.aboveMaximum buffer (settings.capacity buffer))

/-- Refuse a buffer that cannot hold an empty message. -/
def checkMinimum (settings : Settings) (buffer : Buffer) : Except SettingsFault Unit :=
  if buffer.minimum ≤ settings.capacity buffer then .ok ()
  else .error (.belowMinimum buffer (settings.capacity buffer))

/-- Refuse numbers that two operations share. -/
def checkNumbering (settings : Settings) : Except SettingsFault Unit :=
  match settings.numbering.duplicate? with
  | none => .ok ()
  | some number => .error (.repeatedNumber number)

/-- Refuse settings that cannot be used. Of several faults the first counts: buffers too large,
then buffers too small, then shared numbers. -/
def check (settings : Settings) : Except SettingsFault Unit := do
  settings.checkMaximum .call
  settings.checkMaximum .log
  settings.checkMinimum .call
  settings.checkMinimum .log
  settings.checkNumbering

end Settings

end CallGate
