import CallGate.Command.Options
import CallGate.Decimal
import CallGate.Message.Kind

/-!
# Invocations of the command-line tool

What the tool is asked to do, and how its arguments say so. Some options are known to the tool and
to every subcommand; where one is given on both levels, the subcommand's value counts.
-/

namespace CallGate

/-- A call message as a user describes it. What is not given is zero or empty. -/
structure CallRequest where
  kind : CallKind := .call
  sender : Option String := none
  destination : Option String := none
  gas : UInt64 := 21000
  /-- The input in hexadecimal digits. -/
  input : String := ""
  /-- The value as a decimal numeral. -/
  value : String := "0"
  salt : Option String := none
  depth : UInt32 := 0
  /-- Whether the call must not change state. -/
  static : Bool := false
deriving DecidableEq

/-- What the tool can do. -/
inductive Command where
  /-- Show the fields of a call message in hexadecimal digits. -/
  | decodeCall (digits : String)
  /-- Show the fields of a call result, for a request that had this much gas. -/
  | decodeResult (digits : String) (gas : UInt64) (trailer : Bool)
  /-- Show the fields of a log record. -/
  | decodeLog (digits : String)
  /-- Show the fields of a program record. -/
  | decodeProgram (digits : String)
  /-- Write a call message. -/
  | encodeCall (request : CallRequest)
  /-- Write a log record. -/
  | encodeLog (data : String) (topics : List String)
  /-- Check the settings, and show them if asked to. -/
  | settings (shown : Bool)
deriving DecidableEq

/-- One use of the tool. -/
structure Invocation where
  /-- Whether the report is shown as JSON. -/
  json : Bool
  /-- The path of the file with the settings. -/
  settingsPath : Option String
  /-- What to do. -/
  command : Command
deriving DecidableEq

namespace Invocation

open Command (Level OptionSpec Given Stop Reading)

/-- The number of an unsigned numeral, which may have a plus sign in front. -/
def unsigned? (numeral : String) : Option Nat :=
  let digits := match numeral.toList with
    | '+' :: digits => digits
    | digits => digits
  if !digits.isEmpty && digits.all Decimal.isDigit then some (Decimal.value digits) else none

/-- A number of 64 bits. -/
def gas? (numeral : String) : Option UInt64 := do
  let number ← unsigned? numeral
  if number < UInt64.size then some (UInt64.ofNat number) else none

/-- A number of 32 bits. A minus sign is allowed in front of zero. -/
def depth? (numeral : String) : Option UInt32 :=
  match numeral.toList with
  | '-' :: digits => if !digits.isEmpty && digits.all (· == '0') then some 0 else none
  | _ => do
    let number ← unsigned? numeral
    if number < UInt32.size then some (UInt32.ofNat number) else none

/-- A letter of ASCII in lower case. -/
def lower (c : Char) : Char :=
  if 'A' ≤ c ∧ c ≤ 'Z' then Char.ofNat (c.toNat + 32) else c

/-- The kind of call with a name, in either case. -/
def kind? (name : String) : Option CallKind :=
  CallKind.all.find? fun kind => kind.name == String.ofList (name.toList.map lower)

/-- The options that are known everywhere. -/
def commonOptions : List OptionSpec :=
  [{ name := "json", arity := .flag },
    { name := "config", arity := .single, accepts := fun path => path != "" },
    { name := "verbose", letter := some 'v', arity := .counter },
    { name := "help", letter := some 'h', arity := .help }]

/-- The options that each subcommand has besides, and how many other arguments it takes. -/
def ownLevels : List (String × Level) :=
  let digitsOnly : Level := { options := [], positionals := 1 }
  [("decode-call", digitsOnly),
    ("decode-result", {
      options := [
        { name := "gas", arity := .single, accepts := fun numeral => (gas? numeral).isSome },
        { name := "gas-trailer", arity := .flag }]
      positionals := 1 }),
    ("decode-log", digitsOnly),
    ("decode-program", digitsOnly),
    ("encode-call", {
      options := [
        { name := "kind", arity := .single, accepts := fun name => (kind? name).isSome },
        { name := "sender", arity := .single },
        { name := "destination", arity := .single },
        { name := "gas", arity := .single, accepts := fun numeral => (gas? numeral).isSome },
        { name := "input", arity := .single },
        { name := "value", arity := .single },
        { name := "salt", arity := .single },
        { name := "depth", arity := .single, accepts := fun numeral => (depth? numeral).isSome },
        { name := "static", arity := .flag }] }),
    ("encode-log", {
      options := [{ name := "data", arity := .single }, { name := "topic", arity := .repeated }] }),
    ("config", { options := [{ name := "show", arity := .flag }] })]

/-- The name of the subcommand that shows help on others. -/
def helpName : String := "help"

/-- What can stand before the name of a subcommand. -/
def topLevel : Level where
  options := commonOptions ++ [{ name := "version", letter := some 'V', arity := .version }]
  subcommands := ownLevels.map Prod.fst ++ [helpName]

/-- What can stand after the name of a subcommand. -/
def levelOf? (name : String) : Option Level :=
  (ownLevels.lookup name).map fun level => { level with options := level.options ++ commonOptions }

/-- The call message that the options of a subcommand describe. -/
def requestOf (given : Given) : CallRequest :=
  let default : CallRequest := {}
  { kind := ((given.value? "kind").bind kind?).getD default.kind
    sender := given.value? "sender"
    destination := given.value? "destination"
    gas := ((given.value? "gas").bind gas?).getD default.gas
    input := (given.value? "input").getD default.input
    value := (given.value? "value").getD default.value
    salt := given.value? "salt"
    depth := ((given.value? "depth").bind depth?).getD default.depth
    static := given.hasFlag "static" }

/-- What a subcommand with its arguments asks for. -/
def commandOf? (name : String) (given : Given) : Option Command :=
  match name, given.positionals with
  | "decode-call", [digits] => some (.decodeCall digits)
  | "decode-result", [digits] =>
    some (.decodeResult digits (((given.value? "gas").bind gas?).getD 0)
      (given.hasFlag "gas-trailer"))
  | "decode-log", [digits] => some (.decodeLog digits)
  | "decode-program", [digits] => some (.decodeProgram digits)
  | "encode-call", [] => some (.encodeCall (requestOf given))
  | "encode-log", [] =>
    some (.encodeLog ((given.value? "data").getD "") (given.allValues "topic"))
  | "config", [] => some (.settings (given.hasFlag "show"))
  | _, _ => none

/-- Read the arguments of the subcommand that shows help: at most the name of a subcommand. -/
def helpOn : List String → Stop
  | [] => .help
  | [name] => if topLevel.subcommands.contains name then .help else .misuse
  | _ => .misuse

/-- Read the arguments of the tool. -/
def read (arguments : List String) : Except Stop Invocation := do
  let outer ← topLevel.read arguments
  match outer.subcommand with
  | none => throw .misuse
  | some (name, rest) =>
    match levelOf? name with
    | none => throw (helpOn rest)
    | some level =>
      let inner ← level.read rest
      match commandOf? name inner.given with
      | none => throw .misuse
      | some command =>
        return {
          json := outer.given.hasFlag "json" || inner.given.hasFlag "json"
          settingsPath := (inner.given.value? "config").or (outer.given.value? "config")
          command }

end Invocation

end CallGate
