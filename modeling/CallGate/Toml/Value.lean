import CallGate.Toml.Moment
import CallGate.Toml.Node
import CallGate.Toml.Quoted

/-!
# Keys and values in TOML

A key is bare or quoted; keys joined by dots are a path. A value is a string, an array, an inline
table, or a single word: an integer, another number, a truth value, a date or a time.

Arrays and inline tables may be nested to a depth of `maxDepth`, and no path has more keys.
-/

namespace CallGate.Toml

/-- The deepest nesting of values, and the longest path. -/
def maxDepth : Nat := 79

/-- Whether a character may stand in a bare key. -/
def isBareKey (c : Char) : Bool :=
  ('a' ≤ c && c ≤ 'z') || ('A' ≤ c && c ≤ 'Z') || Decimal.isDigit c || c == '_' || c == '-'

/-- Read one key. -/
def key? (text : List Char) : Option (String × List Char) :=
  match text with
  | '"' :: _ | '\'' :: _ => (quoted? text).map fun (key, rest) => (String.ofList key, rest)
  | _ =>
    match text.takeWhile isBareKey with
    | [] => none
    | key => some (String.ofList key, text.dropWhile isBareKey)

/-- Read a path of at most `count` keys. Blanks may surround each key. -/
def path? : (count : Nat) → List Char → Option (List String × List Char)
  | 0, _ => none
  | count + 1, text => do
    let (key, rest) ← key? (skipBlanks text)
    match skipBlanks rest with
    | '.' :: rest =>
      let (path, rest) ← path? count rest
      return (key :: path, rest)
    | rest => return ([key], rest)

/-- Whether a character ends a word. -/
def endsWord (c : Char) : Bool :=
  isBlank c || c == '\n' || c == '\r' || c == '#' || c == ',' || c == ']' || c == '}'

/-- The value that a single word is. -/
def word? (word : List Char) : Option Node :=
  if word = "true".toList then some (.boolean true)
  else if word = "false".toList then some (.boolean false)
  else
    match integer? word with
    | some value => some (.integer value)
    | none =>
      if isFloat word then some (.float (String.ofList word))
      else if isMoment word then some (.moment (String.ofList word))
      else none

/-- Read a value that is a single word. A date and a time of the day may be joined by a space. -/
def scalar? (text : List Char) : Option (Node × List Char) :=
  let word := text.takeWhile fun c => !endsWord c
  let rest := text.dropWhile fun c => !endsWord c
  match rest with
  | ' ' :: after =>
    let time := after.takeWhile fun c => !endsWord c
    if isDate word && isTimeOfDate time then
      some (.moment (String.ofList (word ++ ' ' :: time)), after.dropWhile fun c => !endsWord c)
    else (word? word).map (·, rest)
  | _ => (word? word).map (·, rest)

/-- Read the elements of an array up to its closing bracket. The first argument reads one element;
there are at most `count` of them. -/
def elements? (value? : List Char → Option (Node × List Char)) :
    (count : Nat) → List Char → Option (List Node × List Char)
  | 0, _ => none
  | count + 1, text =>
    match skipLines false text with
    | ']' :: rest => some ([], rest)
    | text => do
      let (node, rest) ← value? text
      match skipLines false rest with
      | ',' :: rest =>
        let (nodes, rest) ← elements? value? count rest
        return (node :: nodes, rest)
      | ']' :: rest => return ([node], rest)
      | _ => none

/-- Read a key or a path with its value, and blanks after it. The first argument reads the
value. -/
def assignment? (value? : List Char → Option (Node × List Char)) (text : List Char) :
    Option ((List String × Node) × List Char) := do
  let (path, rest) ← path? maxDepth text
  match rest with
  | '=' :: rest =>
    let (node, rest) ← value? (skipBlanks rest)
    return ((path, node), skipBlanks rest)
  | _ => none

/-- Read the entries of an inline table up to its closing brace. The first argument reads a value;
there are at most `count` entries. -/
def entries? (value? : List Char → Option (Node × List Char)) :
    (count : Nat) → List Char → Option (List (List String × Node) × List Char)
  | 0, _ => none
  | count + 1, text => do
    let (entry, rest) ← assignment? value? text
    match rest with
    | ',' :: rest =>
      let (entries, rest) ← entries? value? count rest
      return (entry :: entries, rest)
    | '}' :: rest => return ([entry], rest)
    | _ => none

/-- Give the value at the end of a path of keys a place in a table. -/
def Entries.assign (entries : Entries) (path : List String) (node : Node) : Option Entries := do
  entries.define path.dropLast (← path.getLast?) node .header

/-- The inline table of a list of entries. -/
def inlineTable? (assignments : List (List String × Node)) : Option Node :=
  (assignments.foldlM (fun entries (path, node) => Entries.assign entries path node) []).map
    (.table .inline)

/-- Read a value in which arrays and inline tables have at most `count` elements and are nested at
most `depth` deep. -/
def value? (count : Nat) : (depth : Nat) → List Char → Option (Node × List Char)
  | 0, text =>
    match string? text with
    | some (content, rest) => some (.string (String.ofList content), rest)
    | none => scalar? text
  | depth + 1, text =>
    match text with
    | '[' :: rest => do
      let (nodes, rest) ← elements? (value? count depth) count rest
      return (.array nodes, rest)
    | '{' :: rest =>
      match skipBlanks rest with
      | '}' :: rest => some (.table .inline [], rest)
      | rest => do
        let (assignments, rest) ← entries? (value? count depth) count rest
        return (← inlineTable? assignments, rest)
    | text =>
      match string? text with
      | some (content, rest) => some (.string (String.ofList content), rest)
      | none => scalar? text

end CallGate.Toml
