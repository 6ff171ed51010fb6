import CallGate.Bytes
import CallGate.Text.Json

/-!
# Reports

What a command tells: named values and remarks. A report is shown as lines, one a value, or as a
JSON object. Remarks are shown as lines alone, and some values as JSON alone.
-/

namespace CallGate

/-- A named value of a report. -/
inductive ReportValue where
  | text (text : String)
  | number (value : Nat)
  | truth (value : Bool)
  /-- A byte string, shown in hexadecimal digits after `0x`. -/
  | bytes (bytes : Bytes)
  /-- Texts, each on a line of its own after their number. -/
  | list (texts : List String)

/-- A part of a report. -/
inductive ReportItem where
  /-- A named value. -/
  | field (key : String) (value : ReportValue)
  /-- A line that is not shown in JSON. -/
  | remark (line : String)
  /-- A named value that is shown in JSON alone. -/
  | data (key : String) (value : Text.Json)

/-- What a command tells. -/
abbrev Report := List ReportItem

namespace Report

/-- The lines of a list of texts, each after its place. -/
def numbered (place : Nat) : List String → List String
  | [] => []
  | text :: rest => ("  [" ++ Decimal.text place ++ "] " ++ text) :: numbered (place + 1) rest

/-- The lines of a value with its name. -/
def valueLines (key : String) : ReportValue → List String
  | .text text => [key ++ ": " ++ text]
  | .number value => [key ++ ": " ++ Decimal.text value]
  | .truth value => [key ++ ": " ++ Text.Json.truth value]
  | .bytes bytes => [key ++ ": " ++ Hex.marked bytes]
  | .list texts => (key ++ ": [" ++ Decimal.text texts.length ++ "]") :: numbered 0 texts

/-- The lines of a part of a report. -/
def itemLines : ReportItem → List String
  | .field key value => valueLines key value
  | .remark line => [line]
  | .data _ _ => []

/-- A value as JSON. -/
def valueJson : ReportValue → Text.Json
  | .text text => .string text
  | .number value => .number value
  | .truth value => .boolean value
  | .bytes bytes => .string (Hex.marked bytes)
  | .list texts => .array (texts.map .string)

/-- The field of a JSON object that shows a part of a report. -/
def itemField? : ReportItem → Option (String × Text.Json)
  | .field key value => some (key, valueJson value)
  | .remark _ => none
  | .data key value => some (key, value)

/-- A report as lines. -/
def lines (report : Report) : List String :=
  report.flatMap itemLines

/-- A report as a JSON object. -/
def json (report : Report) : Text.Json :=
  .ofFields (report.filterMap itemField?)

/-- A report as it is printed, without the last line end. -/
def render (asJson : Bool) (report : Report) : String :=
  if asJson then report.json.pretty 0 else "\n".intercalate report.lines

end Report

end CallGate
