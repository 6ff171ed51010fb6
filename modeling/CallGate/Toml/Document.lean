import CallGate.Toml.Value

/-!
# TOML documents

A document is a sequence of lines: headers of tables and of elements of arrays of tables, and
assignments to the table that the last header began.
-/

namespace CallGate.Toml

/-- One line of a document that says something. -/
inductive Statement where
  /-- The header of a table. -/
  | table (path : List String)
  /-- The header of the next table of an array of tables. -/
  | element (path : List String)
  /-- The value of a key. -/
  | assignment (path : List String) (node : Node)

/-- Read a header after its opening bracket or brackets. -/
def header? (close : List Char → Option (List Char)) (text : List Char) :
    Option (List String × List Char) := do
  let (path, rest) ← path? maxDepth text
  return (path, ← finishLine (← close rest))

/-- The text after a closing bracket. -/
def close? : List Char → Option (List Char)
  | ']' :: rest => some rest
  | _ => none

/-- Read one statement and the end of its line. No array or inline table in it has more than `count`
elements. -/
def statement? (count : Nat) : List Char → Option (Statement × List Char)
  -- Two brackets have to be told from one first.
  | '[' :: '[' :: rest => do
    let (path, rest) ← header? (fun rest => close? rest >>= close?) rest
    return (.element path, rest)
  | '[' :: rest => do
    let (path, rest) ← header? close? rest
    return (.table path, rest)
  | text => do
    let ((path, node), rest) ← assignment? (value? count maxDepth) text
    return (.assignment path node, ← finishLine rest)

/-- Read the statements of a text of at most `lines` lines, with at most `count` elements in each
array or inline table. -/
def statements? (count : Nat) : (lines : Nat) → List Char → Option (List Statement)
  | 0, text => if text.isEmpty then some [] else none
  | lines + 1, text =>
    match skipBlanks text with
    | [] => some []
    | c :: rest =>
      if c == '#' || c == '\n' || c == '\r' then do
        statements? count lines (← finishLine (c :: rest))
      else do
        let (statement, rest) ← statement? count (c :: rest)
        let statements ← statements? count lines rest
        return statement :: statements

/-- A document that has been read up to some line: its entries, and the path of the last header. -/
structure Draft where
  entries : Entries := []
  header : List String := []

/-- Do what a statement says. -/
def Draft.apply (draft : Draft) : Statement → Option Draft
  | .table path => do
    return ⟨← draft.entries.openTable path.dropLast (← path.getLast?), path⟩
  | .element path => do
    return ⟨← draft.entries.openElement path.dropLast (← path.getLast?), path⟩
  | .assignment path node => do
    let key ← path.getLast?
    -- What is assigned goes below the last header, which stays.
    let entries ← Entries.descend false
      (fun origin entries => entries.define path.dropLast key node origin) draft.header .header
      draft.entries
    return { draft with entries }

/-- The text after the mark that a document may begin with. -/
def dropByteOrderMark : List Char → List Char
  | '\ufeff' :: rest => rest
  | text => text

/-- The entries of a document, if it is one. It has no more lines, and no array in it has more
elements, than it has characters and one. -/
def document? (text : List Char) : Option Entries := do
  let text := dropByteOrderMark text
  let count := text.length + 1
  let statements ← statements? count count text
  let draft ← statements.foldlM Draft.apply {}
  return draft.entries

end CallGate.Toml
