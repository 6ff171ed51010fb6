import CallGate.FixedBytes
import CallGate.Gate.Syscall
import CallGate.Operand
import CallGate.Settings
import CallGate.Wire.Error

/-!
# Errors of a host

Why a callback fails, why settings cannot be had, and the kind of failure that an interpreter sees.
-/

namespace CallGate

/-- Why a host cannot do what it was asked for. -/
inductive HostError where
  /-- A message cannot be written or read. -/
  | wire (error : WireError)
  /-- A syscall came back with a status other than zero. -/
  | status (error : StatusError)
  /-- A storage slot was to be written after a self-destruction. -/
  | writeAfterDestruct (key : Word)
  /-- The settings cannot be used. -/
  | settings (fault : SettingsFault)
  /-- A file cannot be read. -/
  | io (reason : String)
deriving DecidableEq

/-- The kinds of failure that an interpreter tells apart. -/
inductive FailureKind where
  /-- A message does not fit its buffer. -/
  | bufferOverflow
  /-- An answer cannot be read. -/
  | malformedResult
  /-- The boundary refused a syscall. -/
  | boundaryError
  /-- The interpreter asked for something that makes no sense. -/
  | usageError
  /-- The host was set up wrongly. -/
  | config
deriving DecidableEq, Repr

namespace HostError

/-- The error in words. -/
def message : HostError → String
  | .wire error => "codec error: " ++ error.message
  | .status error => "boundary error: " ++ error.message
  | .writeAfterDestruct key => "storage write to " ++ key.hex ++ " after selfdestruct"
  | .settings fault => "invalid config: " ++ fault.message
  | .io reason => "io error: " ++ reason

/-- The kind of failure that an interpreter sees. -/
def kind : HostError → FailureKind
  | .wire (.bufferOverflow ..) => .bufferOverflow
  | .wire (.malformedResult _) => .malformedResult
  | .wire (.truncated ..) => .malformedResult
  | .wire (.malformedRecord _) => .usageError
  | .wire (.invalidKind _) => .usageError
  | .status _ => .boundaryError
  | .writeAfterDestruct _ => .usageError
  | .settings _ => .config
  | .io _ => .config

end HostError

end CallGate
