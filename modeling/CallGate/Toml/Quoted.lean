import CallGate.Toml.Blank
import CallGate.Toml.Number

/-!
# TOML strings

Strings stand between double quotes, where a backslash starts an escape, or between single quotes,
where nothing is escaped. Three quotes on each side make a string of several lines: a line end
right after the first quotes does not belong to it, and up to two quotes may stand before the last
ones.
-/

namespace CallGate.Toml

/-- The character with a code point in hexadecimal digits. -/
def unicode? (digits : List Char) : Option Char :=
  if digits.all (isDigitOf 16) then
    let code := digitsValue 16 digits
    if code.isValidChar then some (Char.ofNat code) else none
  else
    none

/-- The character that an escape of one letter stands for. -/
def escaped? : Char → Option Char
  | 'b' => some '\x08'
  | 't' => some '\t'
  | 'n' => some '\n'
  | 'f' => some '\x0c'
  | 'r' => some '\r'
  | '"' => some '"'
  | '\\' => some '\\'
  | _ => none

/-- Put a character in front of the text that was read. -/
def consText (c : Option Char) (read : Option (List Char × List Char)) :
    Option (List Char × List Char) := do
  let c ← c
  let (text, rest) ← read
  return (c :: text, rest)

/-- Read to the double quote that ends a string. -/
def basicBody : List Char → Option (List Char × List Char)
  | [] => none
  | '"' :: rest => some ([], rest)
  | '\\' :: 'u' :: a :: b :: c :: d :: rest => consText (unicode? [a, b, c, d]) (basicBody rest)
  | '\\' :: 'U' :: a :: b :: c :: d :: e :: f :: g :: h :: rest =>
    consText (unicode? [a, b, c, d, e, f, g, h]) (basicBody rest)
  | '\\' :: c :: rest => consText (escaped? c) (basicBody rest)
  | c :: rest => consText (if isPlain c && c != '\\' then some c else none) (basicBody rest)

/-- Read to the single quote that ends a string. -/
def literalBody : List Char → Option (List Char × List Char)
  | [] => none
  | '\'' :: rest => some ([], rest)
  | c :: rest => consText (if isPlain c then some c else none) (literalBody rest)

/-- The text after a line end, if it starts with one. -/
def dropNewline (text : List Char) : List Char :=
  (newline? text).getD text

/-- Read to the three double quotes that end a string of several lines. A backslash at the end of
a line takes all blanks and line ends after it away (`trimming`). -/
def basicLines (trimming : Bool) : List Char → Option (List Char × List Char)
  | [] => none
  | '\r' :: '\n' :: rest =>
    if trimming then basicLines true rest else consText (some '\n') (basicLines false rest)
  | '\n' :: rest =>
    if trimming then basicLines true rest else consText (some '\n') (basicLines false rest)
  -- Of up to five quotes the last three end the string.
  | '"' :: '"' :: '"' :: '"' :: '"' :: rest => some (['"', '"'], rest)
  | '"' :: '"' :: '"' :: '"' :: rest => some (['"'], rest)
  | '"' :: '"' :: '"' :: rest => some ([], rest)
  | '\\' :: 'u' :: a :: b :: c :: d :: rest =>
    consText (unicode? [a, b, c, d]) (basicLines false rest)
  | '\\' :: 'U' :: a :: b :: c :: d :: e :: f :: g :: h :: rest =>
    consText (unicode? [a, b, c, d, e, f, g, h]) (basicLines false rest)
  | '\\' :: c :: rest =>
    match escaped? c with
    | some c => consText (some c) (basicLines false rest)
    | none =>
      -- Nothing but blanks may stand between the backslash and the end of its line.
      if (newline? (skipBlanks (c :: rest))).isSome then basicLines true (c :: rest) else none
  | c :: rest =>
    if trimming && isBlank c then basicLines true rest
    else consText (if isPlain c && c != '\\' then some c else none) (basicLines false rest)

/-- Read to the three single quotes that end a string of several lines. -/
def literalLines : List Char → Option (List Char × List Char)
  | [] => none
  | '\r' :: '\n' :: rest => consText (some '\n') (literalLines rest)
  -- Here too the last three of up to five quotes end the string.
  | '\'' :: '\'' :: '\'' :: '\'' :: '\'' :: rest => some (['\'', '\''], rest)
  | '\'' :: '\'' :: '\'' :: '\'' :: rest => some (['\''], rest)
  | '\'' :: '\'' :: '\'' :: rest => some ([], rest)
  | c :: rest =>
    consText (if isPlain c || c == '\n' then some c else none) (literalLines rest)

/-- Read a string of one line, which can be a key too. -/
def quoted? : List Char → Option (List Char × List Char)
  | '"' :: rest => basicBody rest
  | '\'' :: rest => literalBody rest
  | _ => none

/-- Read a string. -/
def string? : List Char → Option (List Char × List Char)
  | '"' :: '"' :: '"' :: rest => basicLines false (dropNewline rest)
  | '\'' :: '\'' :: '\'' :: rest => literalLines (dropNewline rest)
  | text => quoted? text

end CallGate.Toml
