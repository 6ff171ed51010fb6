/-!
# TOML values and tables

A document is a table of named values. Besides its entries a table remembers how it came to be,
because that decides whether the rest of the document may still add to it.

* `descend`: the way to a table along a path of keys, making the tables that are missing.
* `define`, `openTable`, `openElement`: the three kinds of statements of a document.
-/

namespace CallGate.Toml

/-- How a table came to be. -/
inductive Origin where
  /-- Written as a value, between braces. Nothing can be added to it. -/
  | inline
  /-- Named by a header of its own. -/
  | header
  /-- Named on the way to the table of a header. -/
  | implied
  /-- Named on the way to the key of a value. -/
  | dotted
deriving DecidableEq, Repr

/-- A value, a table, or an array of tables. -/
inductive Node where
  | string (text : String)
  | integer (value : Int)
  /-- A number with a fraction or an exponent, an infinity, or no number, as it is written. -/
  | float (literal : String)
  | boolean (value : Bool)
  /-- A date, a time, or both, as it is written. -/
  | moment (literal : String)
  | array (elements : List Node)
  | table (origin : Origin) (entries : List (String × Node))
  /-- An array of tables, each begun by a header, the last one first. -/
  | tables (elements : List (List (String × Node)))

/-- The entries of a table. -/
abbrev Entries := List (String × Node)

instance : Inhabited Node := ⟨.table .header []⟩

namespace Entries

/-- The entries with another value for a key. -/
def replace (entries : Entries) (key : String) (node : Node) : Entries :=
  entries.map fun entry => if entry.1 == key then (key, node) else entry

/-- Change the table at the end of a path. Tables that are missing on the way are made. The way to
the key of a value (`dotted`) does not lead through tables that have a header. Of an array of
tables the last one is meant. -/
def descend (dotted : Bool) (change : Origin → Entries → Option Entries) :
    List String → Origin → Entries → Option Entries
  | [], origin, entries => change origin entries
  | key :: path, _, entries =>
    match entries.lookup key with
    | none => do
      let origin := if dotted then Origin.dotted else Origin.implied
      let inner ← descend dotted change path origin []
      return entries ++ [(key, .table origin inner)]
    | some (.table .inline _) => none
    | some (.table origin inner) =>
      if dotted && origin == .header then none
      else do
        let inner ← descend dotted change path origin inner
        return entries.replace key (.table origin inner)
    | some (.tables (last :: earlier)) => do
      let inner ← descend dotted change path .header last
      return entries.replace key (.tables (inner :: earlier))
    | some _ => none

/-- Give a key that has no value yet a value, in the table at the end of a path. A table that was
made on the way to a key takes values by such a way only, any other by no way at all. -/
def define (path : List String) (key : String) (node : Node) (origin : Origin) (entries : Entries) :
    Option Entries :=
  descend true (fun origin entries =>
    if (origin == .dotted) == path.isEmpty then none
    else if (entries.lookup key).isSome then none
    else some (entries ++ [(key, node)])) path origin entries

/-- Begin a table by its header. A table that was only implied so far becomes a table of its own. -/
def openTable (path : List String) (key : String) (entries : Entries) : Option Entries :=
  descend false (fun _ entries =>
    match entries.lookup key with
    | none => some (entries ++ [(key, .table .header [])])
    | some (.table .implied inner) => some (entries.replace key (.table .header inner))
    | some _ => none) path .header entries

/-- Begin the next table of an array of tables by its header. -/
def openElement (path : List String) (key : String) (entries : Entries) : Option Entries :=
  descend false (fun _ entries =>
    match entries.lookup key with
    | none => some (entries ++ [(key, .tables [[]])])
    | some (.tables elements) => some (entries.replace key (.tables ([] :: elements)))
    | some _ => none) path .header entries

end Entries

end CallGate.Toml
