import CallGate.Command.Invocation
import CallGate.Command.Report
import CallGate.Message.Program
import CallGate.Operand
import CallGate.Settings.Document

/-!
# Execution of commands

What the tool reports for a command under given settings, and how a whole invocation ends. The
settings are read before anything else is looked at.
-/

namespace CallGate

/-- Why a command fails. -/
inductive CommandError where
  /-- A text is not the operand that was asked for. -/
  | operand (error : OperandError)
  /-- The value of a call is no number of 256 bits. -/
  | value (error : Decimal.QuantityError)
  /-- A message cannot be written or read. -/
  | wire (error : WireError)
  /-- The settings cannot be had. -/
  | host (error : HostError)
deriving DecidableEq

/-- The error in words. -/
def CommandError.message : CommandError → String
  | .operand error => "Parse error: " ++ error.message
  | .value error => "Invalid input: value: " ++ error.message
  | .wire error => "Codec error: " ++ error.message
  | .host error => "Config error: " ++ error.message

/-- The settings as JSON. -/
def Settings.json (settings : Settings) : Text.Json :=
  .ofFields [
    (Buffer.call.settingName, .number settings.callCapacity),
    (Buffer.log.settingName, .number settings.logCapacity),
    ("gas_accounting", .string settings.gasAccounting.name),
    ("storage_status", .string settings.statusPolicy.name),
    ("strict_destruct", .boolean settings.strictDestruct),
    ("syscalls", .ofFields (Syscall.all.map fun syscall =>
      (syscall.name, .number (settings.numbering.number syscall))))]

namespace Command

/-- A byte string that a user gives. -/
def bytesOf (text : String) : Except CommandError Bytes :=
  (Operand.bytes text.toList).mapError .operand

/-- An address that a user gives, zero if none is given. -/
def addressOf : Option String → Except CommandError Address
  | none => .ok .zero
  | some text => (Operand.address text.toList).mapError .operand

/-- A word that a user gives, zero if none is given. -/
def wordOf : Option String → Except CommandError Word
  | none => .ok .zero
  | some text => (Operand.word text.toList).mapError .operand

/-- The amount that a user gives as a decimal numeral. -/
def amountOf (numeral : String) : Except CommandError Word :=
  match Decimal.quantity numeral.toList with
  | .ok number => .ok (.ofNat number)
  | .error error => .error (.value error)

/-- The call message that a user describes. -/
def messageOf (request : CallRequest) : Except CommandError CallMessage := do
  let sender ← addressOf request.sender
  let destination ← addressOf request.destination
  let value ← amountOf request.value
  let salt ← wordOf request.salt
  let input ← bytesOf request.input
  return {
    kind := request.kind
    flags := if request.static then .static else .none
    depth := request.depth
    gas := request.gas
    destination, sender, input, value, salt }

/-- The fields of a call message. -/
def messageReport (message : CallMessage) : Report :=
  [.field "kind" (.text message.kind.name),
    .field "flags" (.number message.flags.bits.toNat),
    .field "static" (.truth message.isStatic),
    .field "depth" (.number message.depth.toNat),
    .field "gas" (.number message.gas.toNat),
    .field "destination" (.bytes message.destination.bytes),
    .field "sender" (.bytes message.sender.bytes),
    .field "input" (.bytes message.input),
    .field "value" (.text (Decimal.text message.value.toNat)),
    .field "create2_salt" (.bytes message.salt.bytes)]

/-- The fields of a call result. -/
def resultReport (result : CallResult) : Report :=
  [.field "status" (.text (if result.isSuccess then "success" else "failure")),
    .field "gas_left" (.number result.gasLeft.toNat),
    .field "output" (.bytes result.output),
    .field "created_address" (.bytes result.created.bytes)]

/-- The fields of a log record. -/
def logReport (record : LogRecord) : Report :=
  [.field "data" (.bytes record.data),
    .field "topics" (.list (record.topics.map FixedBytes.hex))]

/-- The fields of a program record. -/
def programReport (program : Program) : Report :=
  [.field "kind" (.text program.kind.name),
    .field "flags" (.number program.flags.bits.toNat),
    .field "depth" (.number program.depth.toNat),
    .field "sender" (.bytes program.sender.bytes),
    .field "destination" (.bytes program.destination.bytes),
    .field "code" (.bytes program.code),
    .field "input" (.bytes program.input)]

/-- A message that was written. -/
def encodedReport (bytes : Bytes) : Report :=
  [.field "length" (.number bytes.length), .field "encoded" (.bytes bytes)]

/-- The settings in use, or only that they can be used. -/
def settingsReport (settings : Settings) (shown : Bool) : Except CommandError Report :=
  if shown then do
    let document ← (settings.render.mapError .settings).mapError .host
    let shownLines := (document.reverse.dropWhile Text.isBlank).reverse
    return [.remark (String.ofList shownLines), .data "config" settings.json]
  else
    return [.field "status" (.text "valid"), .remark "Use --show to display the configuration"]

/-- What the tool reports for a command. -/
def execute (settings : Settings) : Command → Except CommandError Report
  | .decodeCall digits => do
    messageReport <$> (CallMessage.decode (← bytesOf digits)).mapError .wire
  | .decodeResult digits gas trailer => do
    let accounting := if trailer then .trailer else settings.gasAccounting
    resultReport <$> (CallResult.decode (← bytesOf digits) gas accounting).mapError .wire
  | .decodeLog digits => do
    logReport <$> (LogRecord.decode (← bytesOf digits)).mapError .wire
  | .decodeProgram digits => do
    programReport <$> (Program.decode (← bytesOf digits)).mapError .wire
  | .encodeCall request => do
    encodedReport <$> ((← messageOf request).encode settings.callCapacity).mapError .wire
  | .encodeLog data topics => do
    let data ← bytesOf data
    let topics ← topics.mapM fun topic => wordOf (some topic)
    encodedReport <$> (LogRecord.encode ⟨data, topics⟩ settings.logCapacity).mapError .wire
  | .settings shown => settingsReport settings shown

end Command

/-- How a run of the tool ends. -/
structure Completion where
  exitCode : UInt32
  stdout : String := ""
  stderr : String := ""
deriving DecidableEq

namespace Invocation

/-- The settings of an invocation, where `file` is the file at its path if it names one. -/
def settings (invocation : Invocation) (file : Option Settings.File) :
    Except CommandError Settings :=
  match invocation.settingsPath, file with
  | some _, some file => (Settings.load file).mapError .host
  | _, _ => .ok {}

/-- What the tool reports for an invocation, given the file with the settings if it names one. -/
def perform (invocation : Invocation) (file : Option Settings.File) :
    Except CommandError Report := do
  invocation.command.execute (← invocation.settings file)

/-- What the tool prints for a report or an error. -/
def complete (invocation : Invocation) : Except CommandError Report → Completion
  | .ok report => { exitCode := 0, stdout := report.render invocation.json ++ "\n" }
  | .error error =>
    if invocation.json then
      let object := Text.Json.ofFields
        [("error", .string error.message), ("success", .boolean false)]
      { exitCode := 1, stdout := object.compact ++ "\n" }
    else
      { exitCode := 1, stderr := "Error: " ++ error.message ++ "\n" }

end Invocation

/-- How to use the tool. -/
def usage : String :=
  "Usage: sandhost [--json] [--config <FILE>] [-v] <COMMAND>\n\n"
    ++ "Commands:\n"
    ++ "  decode-call <HEX>\n"
    ++ "  decode-result <HEX> [--gas <GAS>] [--gas-trailer]\n"
    ++ "  decode-log <HEX>\n"
    ++ "  decode-program <HEX>\n"
    ++ "  encode-call [--kind <KIND>] [--sender <ADDRESS>] [--destination <ADDRESS>]\n"
    ++ "              [--gas <GAS>] [--input <HEX>] [--value <VALUE>] [--salt <WORD>]\n"
    ++ "              [--depth <DEPTH>] [--static]\n"
    ++ "  encode-log [--data <HEX>] [--topic <WORD>]...\n"
    ++ "  config [--show]\n"

/-- What the tool prints when its arguments do not lead to a run. -/
def Command.Stop.complete : Command.Stop → Completion
  | .misuse => { exitCode := 2, stderr := "error: wrong arguments\n\n" ++ usage }
  | .help => { exitCode := 0, stdout := usage }
  | .version => { exitCode := 0, stdout := "sandhost 0.1.0\n" }

end CallGate
