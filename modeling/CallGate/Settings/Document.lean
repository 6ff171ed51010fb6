import CallGate.Host.Error
import CallGate.Toml.Document

/-!
# Settings as a TOML document

Settings are kept in a TOML document. A setting that is left out has its default, and entries that
are no settings are ignored. What is read is checked before it is handed out.

* `read`: the settings in a document.
* `render`: the document of settings, which holds every setting.
-/

namespace CallGate

/-- The name of a way of accounting for gas. -/
def GasAccounting.name : GasAccounting → String
  | .passThrough => "pass-through"
  | .trailer => "trailer"

/-- The name of a way of reporting writes. -/
def StatusPolicy.name : StatusPolicy → String
  | .byEffect => "classified"
  | .alwaysAdded => "always-added"

namespace Settings

open Toml (Node Entries)

/-- A number that is not negative. -/
def natural? : Node → Option Nat
  | .integer value => if 0 ≤ value then some value.toNat else none
  | _ => none

/-- A truth value. -/
def boolean? : Node → Option Bool
  | .boolean value => some value
  | _ => none

/-- One of several named choices: the name as a string, or a table whose only entry is an empty
table or array under the name. -/
def choice? {α : Type} (name : α → String) (choices : List α) : Node → Option α
  | .string text => choices.find? fun choice => name choice == text
  | .table _ [(key, .table _ [])] | .table _ [(key, .array [])] =>
    choices.find? fun choice => name choice == key
  | _ => none

/-- The value of an entry, or a default where there is no such entry. -/
def entryOr {α : Type} (entries : Entries) (key : String) (value? : Node → Option α)
    (default : α) : Option α :=
  match entries.lookup key with
  | none => some default
  | some node => value? node

/-- The number at a place of an array, or a default where the array is shorter. -/
def elementOr (elements : List Node) (place : Nat) (default : Nat) : Option Nat :=
  match elements[place]? with
  | none => some default
  | some node => natural? node

/-- The numbers of the operations: a table by their names, or an array in their order. A date or a
time is a table without their names. -/
def numbering? : Node → Option Numbering
  | .table _ entries => do
    return {
      ret := ← entryOr entries Syscall.ret.name natural? Syscall.ret.defaultNumber
      log := ← entryOr entries Syscall.log.name natural? Syscall.log.defaultNumber
      selfDestruct :=
        ← entryOr entries Syscall.selfDestruct.name natural? Syscall.selfDestruct.defaultNumber
      call := ← entryOr entries Syscall.call.name natural? Syscall.call.defaultNumber }
  | .array elements => do
    return {
      ret := ← elementOr elements 0 Syscall.ret.defaultNumber
      log := ← elementOr elements 1 Syscall.log.defaultNumber
      selfDestruct := ← elementOr elements 2 Syscall.selfDestruct.defaultNumber
      call := ← elementOr elements 3 Syscall.call.defaultNumber }
  | .moment _ => some {}
  | _ => none

/-- The settings in the entries of a document. -/
def ofEntries? (entries : Entries) : Option Settings := do
  let default : Settings := {}
  return {
    callCapacity := ← entryOr entries Buffer.call.settingName natural? default.callCapacity
    logCapacity := ← entryOr entries Buffer.log.settingName natural? default.logCapacity
    gasAccounting := ← entryOr entries "gas_accounting"
      (choice? GasAccounting.name [.passThrough, .trailer]) default.gasAccounting
    statusPolicy := ← entryOr entries "storage_status"
      (choice? StatusPolicy.name [.byEffect, .alwaysAdded]) default.statusPolicy
    strictDestruct := ← entryOr entries "strict_destruct" boolean? default.strictDestruct
    numbering := ← entryOr entries "syscalls" numbering? default.numbering }

/-- Read settings from a document and check them. -/
def read (document : List Char) : Except SettingsFault Settings := do
  match Toml.document? document >>= ofEntries? with
  | none => throw .unreadable
  | some settings =>
    settings.check
    return settings

/-- Whether a document can hold all numbers of the settings. -/
def isWritable (settings : Settings) : Bool :=
  (settings.callCapacity :: settings.logCapacity :: settings.numbering.numbers).all
    (· ≤ Toml.maxInteger)

/-- One line of a document. -/
def line (key value : String) : List Char :=
  key.toList ++ ' ' :: '=' :: ' ' :: value.toList ++ ['\n']

/-- The truth value in words. -/
def booleanText (value : Bool) : String :=
  if value then "true" else "false"

/-- A string between double quotes. -/
def quotedText (text : String) : String :=
  "\"" ++ text ++ "\""

/-- The document of settings. -/
def document (settings : Settings) : List Char :=
  line Buffer.call.settingName (Decimal.text settings.callCapacity)
    ++ line Buffer.log.settingName (Decimal.text settings.logCapacity)
    ++ line "gas_accounting" (quotedText settings.gasAccounting.name)
    ++ line "storage_status" (quotedText settings.statusPolicy.name)
    ++ line "strict_destruct" (booleanText settings.strictDestruct)
    ++ "\n[syscalls]\n".toList
    ++ Syscall.all.flatMap fun syscall =>
      line syscall.name (Decimal.text (settings.numbering.number syscall))

/-- Write settings as a document, if it can hold their numbers. -/
def render (settings : Settings) : Except SettingsFault (List Char) :=
  if settings.isWritable then .ok settings.document else .error .unwritable

/-- A file that may hold settings. -/
inductive File where
  /-- The bytes of the file. -/
  | contents (bytes : Bytes)
  /-- The file cannot be read, for a reason that the system gives. -/
  | unavailable (reason : String)

/-- Read settings from a file and check them. -/
def load : File → Except HostError Settings
  | .unavailable reason => .error (.io reason)
  | .contents bytes =>
    match String.fromUTF8? bytes.toByteArray with
    | none => .error (.io "stream did not contain valid UTF-8")
    | some document => (read document.toList).mapError .settings

end Settings

end CallGate
