import Brainfuck.Toml.Scalar
import Brainfuck.Toml.Strings

/-!
# Brainfuck.Toml.Document

A TOML document: one statement on a line, each of them a header or a key with
its value.  Reading is in two parts, from text to statements and from statements
to one table; both end at the first thing wrong.
-/

namespace Brainfuck.Toml

/-- Values are nested less deeply than this, and paths of keys are shorter. -/
def depthBound : Nat := 80

/-! ## keys -/

/-- A character that a key may have without quotes. -/
def isBare (c : Char) : Bool := c.isAlphanum || c == '_' || c == '-'

/-- Reads a key without dots. -/
def simpleKey? : Reader String
  | '"' :: rest => (basic rest).map fun (cs, rest) => (String.ofList cs, rest)
  | '\x27' :: rest => (literal rest).map fun (cs, rest) => (String.ofList cs, rest)
  | cs =>
    match cs.takeWhile isBare with
    | [] => none
    | key => some (String.ofList key, cs.dropWhile isBare)

/-- Reads up to `fuel` keys with dots between them, and the blanks around them. -/
def keys? : Nat → Reader (List String)
  | 0, _ => none
  | fuel + 1, cs =>
    (simpleKey? (skipSpaces cs)).bind fun (key, rest) =>
      match skipSpaces rest with
      | '.' :: rest => (keys? fuel rest).map fun (keys, rest) => (key :: keys, rest)
      | rest => some ([key], rest)

/-- A path of keys: those on the way, and the last one. -/
abbrev Path := List String × String

/-- Reads a path of keys. -/
def path? (cs : List Char) : Option (Path × List Char) :=
  (keys? (depthBound - 1) cs).bind fun (keys, rest) =>
    keys.getLast?.map fun last => ((keys.dropLast, last), rest)

/-! ## values -/

/-- An inline table of keys with their values. -/
def inlineTable? (pairs : List (Path × Value)) : Option Value :=
  (pairs.foldlM (fun es ((path, key), v) => Entries.add path key v .named es) []).map
    fun es => .table .inline es

mutual

/-- Reads a value at some depth. -/
def value? : Nat → Nat → Reader Value
  | 0, _, _ => none
  | fuel + 1, depth, cs =>
    match cs with
    | '"' :: _ => (string? cs).map fun (s, rest) => (.string s, rest)
    | '\x27' :: _ => (string? cs).map fun (s, rest) => (.string s, rest)
    | '[' :: rest =>
      if depthBound ≤ depth + 1 then none
      else (items? fuel (depth + 1) rest).map fun (items, rest) => (.array items, rest)
    | '\x7b' :: rest =>
      if depthBound ≤ depth + 1 then none
      else
        match skipSpaces rest with
        | '\x7d' :: rest => some (.table .inline [], rest)
        | _ =>
          (pairs? fuel (depth + 1) rest).bind fun (pairs, rest) =>
            (inlineTable? pairs).map fun t => (t, rest)
    | _ => scalar? cs

/-- Reads the items of a list up to its closing bracket. -/
def items? : Nat → Nat → Reader (List Value)
  | 0, _, _ => none
  | fuel + 1, depth, cs =>
    match skipLines cs.length cs with
    | ']' :: rest => some ([], rest)
    | cs =>
      (value? fuel depth cs).bind fun (v, rest) =>
        match skipLines rest.length rest with
        | ',' :: rest => (items? fuel depth rest).map fun (vs, rest) => (v :: vs, rest)
        | ']' :: rest => some ([v], rest)
        | _ => none

/-- Reads the keys and values of an inline table up to its closing brace. -/
def pairs? : Nat → Nat → Reader (List (Path × Value))
  | 0, _, _ => none
  | fuel + 1, depth, cs =>
    (path? cs).bind fun (path, rest) =>
      match rest with
      | '=' :: rest =>
        (value? fuel depth (skipSpaces rest)).bind fun (v, rest) =>
          match skipSpaces rest with
          | ',' :: rest => (pairs? fuel depth rest).map fun (ps, rest) => ((path, v) :: ps, rest)
          | '\x7d' :: rest => some ([(path, v)], rest)
          | _ => none
      | _ => none

end

/-! ## statements -/

/-- One statement of a document. -/
inductive Statement where
  /-- The keys that follow belong to this table. -/
  | table (path : Path)
  /-- The keys that follow belong to a new element of this list of tables. -/
  | element (path : Path)
  | entry (path : Path) (value : Value)

/-- Reads a statement without the rest of its line. -/
def statement? (cs : List Char) : Option (Statement × List Char) :=
  match cs with
  | '[' :: '[' :: rest =>
    (path? rest).bind fun (path, rest) => (after? [']', ']'] rest).map fun rest => (.element path, rest)
  | '[' :: rest =>
    (path? rest).bind fun (path, rest) => (after? [']'] rest).map fun rest => (.table path, rest)
  | _ =>
    (path? cs).bind fun (path, rest) =>
      (after? ['='] rest).bind fun rest =>
        (value? (2 * rest.length + 2) 0 (skipSpaces rest)).map fun (v, rest) => (.entry path v, rest)

/-- Reads all statements of a text of at most `fuel` lines. -/
def statements? : Nat → List Char → Option (List Statement)
  | 0, _ => none
  | fuel + 1, cs =>
    match skipSpaces cs with
    | [] => some []
    | cs =>
      match endOfLine? cs with
      | some rest => statements? fuel rest
      | none =>
        (statement? cs).bind fun (s, rest) =>
          (endOfLine? rest).bind fun rest => (statements? fuel rest).map (s :: ·)

/-- A table that is being put together, and the path of the last header. -/
structure Assembly where
  root : Entries
  /-- Where keys go. -/
  current : List String

/-- Adds one statement to a document. -/
def Assembly.extend? (a : Assembly) : Statement → Option Assembly
  | .table (path, key) => (a.root.openTable path key).map fun root => ⟨root, path ++ [key]⟩
  | .element (path, key) => (a.root.openElement path key).map fun root => ⟨root, path ++ [key]⟩
  | .entry (path, key) v =>
    (Entries.descend false (fun origin es => Entries.add path key v origin es) a.current .named
      a.root).map fun root => { a with root := root }

/-- The table that the statements make. -/
def assemble? (statements : List Statement) : Option Entries :=
  (statements.foldlM Assembly.extend? ⟨[], []⟩).map (·.root)

/-- Reads a document.  A byte order mark at its front is skipped. -/
def document? (text : String) : Option Entries :=
  let cs := match text.toList with
    | '\uFEFF' :: rest => rest
    | cs => cs
  (statements? (cs.length + 1) cs).bind assemble?

end Brainfuck.Toml
