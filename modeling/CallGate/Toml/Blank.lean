/-!
# Space, comments and line ends in TOML

Blanks are spaces and tabs. A line ends with a line feed, which a carriage return may precede, and
a comment reaches to the end of its line.
-/

namespace CallGate.Toml

/-- Whether a character may stand in comments and in strings: a tab, or no control character of
ASCII. -/
def isPlain (c : Char) : Bool :=
  c == '\t' || (' ' ≤ c && c != '\x7f')

/-- Whether a character is a blank. -/
def isBlank (c : Char) : Bool :=
  c == ' ' || c == '\t'

/-- The text after its blanks. -/
def skipBlanks (text : List Char) : List Char :=
  text.dropWhile isBlank

/-- The text after a line end, if it starts with one. -/
def newline? : List Char → Option (List Char)
  | '\n' :: rest => some rest
  | '\r' :: '\n' :: rest => some rest
  | _ => none

/-- The text after a line end; the end of the document counts as one. -/
def lineEnd? : List Char → Option (List Char)
  | [] => some []
  | text => newline? text

/-- The text after blanks, a comment if there is one, and a line end. -/
def finishLine (text : List Char) : Option (List Char) :=
  match skipBlanks text with
  | '#' :: rest => lineEnd? (rest.dropWhile isPlain)
  | rest => lineEnd? rest

/-- The text after blanks, line ends and comments. In a comment, what must not stand there stays
in front. -/
def skipLines (inComment : Bool) : List Char → List Char
  | [] => []
  | '\n' :: rest => skipLines false rest
  | '\r' :: '\n' :: rest => skipLines false rest
  | c :: rest =>
    if inComment then
      if isPlain c then skipLines true rest else c :: rest
    else if c == '#' then skipLines true rest
    else if isBlank c then skipLines false rest
    else c :: rest

end CallGate.Toml
