import CallGate.Decimal
import CallGate.Hex
import CallGate.OrderedMap

/-!
# JSON texts

The JSON values that reports consist of, and their two written forms: one without any white space,
and one with every element on a line of its own. Objects are written in the order of their
entries; `Json.ofFields` puts them in the order of their keys.
-/

namespace CallGate.Text

/-- A JSON value. -/
inductive Json where
  | string (text : String)
  | number (value : Nat)
  | boolean (value : Bool)
  | array (elements : List Json)
  | object (entries : List (String × Json))

namespace Json

/-- The object of a list of fields, in the order of their keys; of several fields with one key the
last counts. -/
def ofFields (fields : List (String × Json)) : Json :=
  .object (OrderedMap.ofList fields).entries

/-- A character inside a quoted text. Quotes, backslashes and control characters are escaped. -/
def quoteChar (c : Char) : List Char :=
  match c with
  | '"' => ['\\', '"']
  | '\\' => ['\\', '\\']
  | '\x08' => ['\\', 'b']
  | '\t' => ['\\', 't']
  | '\n' => ['\\', 'n']
  | '\x0c' => ['\\', 'f']
  | '\r' => ['\\', 'r']
  | c => if c < ' ' then ['\\', 'u', '0', '0'] ++ Hex.encodeByte (UInt8.ofNat c.toNat) else [c]

/-- A text between quotes. -/
def quote (text : String) : String :=
  String.ofList ('"' :: text.toList.flatMap quoteChar ++ ['"'])

/-- The name of a truth value. -/
def truth (value : Bool) : String :=
  if value then "true" else "false"

mutual

/-- A value without white space. -/
def compact : Json → String
  | .string text => quote text
  | .number value => Decimal.text value
  | .boolean value => truth value
  | .array elements => "[" ++ compactElements elements ++ "]"
  | .object entries => "\x7b" ++ compactEntries entries ++ "\x7d"

/-- Elements separated by commas. -/
def compactElements : List Json → String
  | [] => ""
  | [element] => compact element
  | element :: rest => compact element ++ "," ++ compactElements rest

/-- Entries separated by commas. -/
def compactEntries : List (String × Json) → String
  | [] => ""
  | [(key, value)] => quote key ++ ":" ++ compact value
  | (key, value) :: rest => quote key ++ ":" ++ compact value ++ "," ++ compactEntries rest

end

/-- The start of a line at a depth of nesting: two blanks a level. -/
def margin (depth : Nat) : String :=
  String.ofList (List.replicate (2 * depth) ' ')

mutual

/-- A value with every element on a line of its own, at a depth of nesting. What has no elements is
written on the line where it starts. -/
def pretty (depth : Nat) : Json → String
  | .string text => quote text
  | .number value => Decimal.text value
  | .boolean value => truth value
  | .array [] => "[]"
  | .array elements =>
    "[\n" ++ prettyElements (depth + 1) elements ++ "\n" ++ margin depth ++ "]"
  | .object [] => "\x7b\x7d"
  | .object entries =>
    "\x7b\n" ++ prettyEntries (depth + 1) entries ++ "\n" ++ margin depth ++ "\x7d"

/-- Elements on lines of their own, separated by commas. -/
def prettyElements (depth : Nat) : List Json → String
  | [] => ""
  | [element] => margin depth ++ pretty depth element
  | element :: rest => margin depth ++ pretty depth element ++ ",\n" ++ prettyElements depth rest

/-- Entries on lines of their own, separated by commas. -/
def prettyEntries (depth : Nat) : List (String × Json) → String
  | [] => ""
  | [(key, value)] => margin depth ++ quote key ++ ": " ++ pretty depth value
  | (key, value) :: rest =>
    margin depth ++ quote key ++ ": " ++ pretty depth value ++ ",\n" ++ prettyEntries depth rest

end

end Json

end CallGate.Text
