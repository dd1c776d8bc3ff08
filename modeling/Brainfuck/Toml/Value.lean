import Brainfuck.Text.Binary64

/-!
# Brainfuck.Toml.Value

The values of a TOML document, and tables that are put together piece by piece.

A table may come to be in several ways, and they do not mix.  A header names a
table once; headers of its subtables may come before it.  Dotted keys build
tables of their own, which only dotted keys can extend.  An inline table is
complete where it stands.  `descend` is the walk along a path of keys that all
of these share.
-/

namespace Brainfuck.Toml

open Text

/-- How a table came to be. -/
inductive Origin where
  /-- It was named by a header, or is the document itself. -/
  | named
  /-- Headers of its subtables imply it. -/
  | implied
  | dotted
  | inline
deriving DecidableEq, Repr

/-- A value. -/
inductive Value where
  | string (s : String)
  | integer (n : Int)
  | float (x : Binary64)
  | boolean (b : Bool)
  /-- A date, a time, or both. -/
  | datetime
  | array (items : List Value)
  /-- A table with its keys in the order in which they were first written. -/
  | table (origin : Origin) (entries : List (String × Value))
  /-- A list of tables, each named by a header of its own. -/
  | tables (elements : List (List (String × Value)))

/-- The keys and values of a table. -/
abbrev Entries := List (String × Value)

namespace Entries

/-- The value of a key. -/
def get? (es : Entries) (key : String) : Option Value := List.lookup key es

/-- Replaces the value of a key where it stands. -/
def replace (es : Entries) (key : String) (v : Value) : Entries :=
  es.map fun (k, old) => if k = key then (k, v) else (k, old)

/-- Removes a key. -/
def erase (es : Entries) (key : String) : Entries := es.filter fun (k, _) => k ≠ key

/-- Walks along a path of keys and changes the table at its end.  Tables that
are missing on the way are made, by headers as implied tables and by dotted keys
as dotted ones.  A list of tables stands for its last element.  Dotted keys do
not go into tables that a header has named. -/
def descend (byDots : Bool) (change : Origin → Entries → Option Entries) :
    List String → Origin → Entries → Option Entries
  | [], origin, es => change origin es
  | key :: rest, _, es =>
    match es.get? key with
    | none =>
      let origin := if byDots then Origin.dotted else Origin.implied
      (descend byDots change rest origin []).map fun made =>
        es ++ [(key, Value.table origin made)]
    | some (.table .inline _) => none
    | some (.table origin inner) =>
      if byDots ∧ origin = .named then none
      else (descend byDots change rest origin inner).map fun new =>
        es.replace key (.table origin new)
    | some (.tables elements) =>
      match elements.getLast? with
      | none => none
      | some last => (descend byDots change rest .named last).map fun new =>
        es.replace key (.tables (elements.dropLast ++ [new]))
    | some _ => none

/-- Adds a value under a new key to a table.  A path of dotted keys has to end in
a table of dotted keys. -/
def add (path : List String) (key : String) (v : Value) (origin : Origin) (es : Entries) :
    Option Entries :=
  descend true
    (fun origin es =>
      if !path.isEmpty ∧ origin ≠ .dotted then none
      else if (es.get? key).isSome then none
      else some (es ++ [(key, v)]))
    path origin es

/-- Names the table `key` by a header, in the table at the end of `path`. -/
def openTable (path : List String) (key : String) (es : Entries) : Option Entries :=
  descend false
    (fun _ es =>
      match es.get? key with
      | none => some (es ++ [(key, .table .named [])])
      | some (.table .implied inner) => some (es.erase key ++ [(key, .table .named inner)])
      | some _ => none)
    path .named es

/-- Starts a new element of the list of tables `key`, in the table at the end of
`path`. -/
def openElement (path : List String) (key : String) (es : Entries) : Option Entries :=
  descend false
    (fun _ es =>
      match es.get? key with
      | none => some (es ++ [(key, .tables [[]])])
      | some (.tables elements) => some (es.replace key (.tables (elements ++ [[]])))
      | some _ => none)
    path .named es

end Entries

end Brainfuck.Toml
