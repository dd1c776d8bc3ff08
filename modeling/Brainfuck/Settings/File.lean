import Brainfuck.Settings
import Brainfuck.Toml.Document
import Brainfuck.Text.Quoted

/-!
# Brainfuck.Settings.File

Settings from a TOML document: the table `engine`, whose keys are the names of
the settings.  A list in its place gives the settings in their order.  Keys that
name no setting do not matter; the first setting of the wrong shape, in the
order of the document, makes the whole document unusable.
-/

namespace Brainfuck

open Text Toml

/-- What is wrong with a value. -/
inductive ShapeError where
  | invalidType (found expected : String)
  | invalidValue (n : Int) (expected : String)
  | unknownWord (word : String) (expected : String × String)
  /-- It is neither a word nor a table that names one. -/
  | notAWord
  | noKey
  | severalKeys
  /-- It is a table that names a word, but the word has a table that is not empty. -/
  | notEmptyTable
  /-- It is a table that names a word, but the word has a list of tables. -/
  | notEmptyList
  /-- It is a table that names a word, but the word has a value that is no table. -/
  | notATable (found : String)
deriving DecidableEq, Repr

/-- The wording for a value of the wrong shape. -/
def ShapeError.message : ShapeError → String
  | .invalidType found expected => "invalid type: " ++ found ++ ", expected " ++ expected
  | .invalidValue n expected =>
    "invalid value: integer `" ++ intText n ++ "`, expected " ++ expected
  | .unknownWord word expected =>
    "unknown variant `" ++ word ++ "`, expected `" ++ expected.1 ++ "` or `" ++ expected.2 ++ "`"
  | .notAWord => "wanted string or table"
  | .noKey => "wanted exactly 1 element, found 0 elements"
  | .severalKeys => "wanted exactly 1 element, more than 1 element"
  | .notEmptyTable => "expected empty table"
  | .notEmptyList => "expected empty array"
  | .notATable found => "expected table, found " ++ found
where
  /-- A whole number with its sign. -/
  intText (n : Int) : String :=
    if n < 0 then "-" ++ decimal n.natAbs else decimal n.natAbs

namespace Settings

/-- A description of a value that is not what was expected. -/
def found : Value → String
  | .string s => "string " ++ quoted s
  | .integer n => "integer `" ++ ShapeError.message.intText n ++ "`"
  | .float x => "floating point `" ++ x.text ++ "`"
  | .boolean b => "boolean `" ++ (if b then "true" else "false") ++ "`"
  | .datetime => "map"
  | .array _ => "sequence"
  | .tables _ => "sequence"
  | .table .. => "map"

/-- Reads a number; `expected` is the name of what it should be. -/
def number (expected : String) : Value → Except ShapeError Nat
  | .integer n => if 0 ≤ n then .ok n.toNat else .error (.invalidValue n expected)
  | v => .error (.invalidType (found v) expected)

/-- Checks that a table that names a word gives the word nothing else. -/
def unit : Value → Except ShapeError Unit
  | .array [] => .ok ()
  | .array _ => .error .notEmptyTable
  | .tables [] => .ok ()
  | .tables _ => .error .notEmptyList
  | .table _ [] => .ok ()
  | .table .. => .error .notEmptyTable
  | .string _ => .error (.notATable "string")
  | .integer _ => .error (.notATable "integer")
  | .float _ => .error (.notATable "float")
  | .boolean _ => .error (.notATable "boolean")
  | .datetime => .error (.notATable "datetime")

/-- Reads one of two words, or a table that has one of them as its only key. -/
def word {α : Type} (first second : String × α) : Value → Except ShapeError α
  | .string s => pick s
  | .table _ [(key, v)] =>
    match pick key with
    | .error e => .error e
    | .ok a => (unit v).map fun _ => a
  | .table _ [] => .error .noKey
  | .table .. => .error .severalKeys
  | _ => .error .notAWord
where
  /-- What a word stands for. -/
  pick (s : String) : Except ShapeError α :=
    if s = first.1 then .ok first.2
    else if s = second.1 then .ok second.2
    else .error (.unknownWord s (first.1, second.1))

/-- The names of the settings, in their order. -/
def names : List String :=
  ["tape_size", "step_delay_ms", "max_steps", "timeout_ms", "pointer_policy", "bracket_mode"]

/-- Sets what a name stands for to a value. -/
def assign (s : Settings) (name : String) (v : Value) : Except ShapeError Settings :=
  match name with
  | "tape_size" => (number "usize" v).map fun n => { s with tapeSize := n }
  | "step_delay_ms" => (number "u64" v).map fun n => { s with stepDelay := n }
  | "max_steps" => (number "usize" v).map fun n => { s with maxSteps := some n }
  | "timeout_ms" => (number "u64" v).map fun n => { s with timeout := n }
  | "pointer_policy" =>
    (word ("strict", .strict) ("wrap", .wrap) v).map fun p => { s with pointerPolicy := p }
  | "bracket_mode" =>
    (word ("permissive", .permissive) ("strict", .strict) v).map fun m =>
      { s with bracketMode := m }
  | _ => .ok s

/-- Sets several names in order, up to the first value of the wrong shape. -/
def assignAll (s : Settings) (entries : List (String × Value)) : Except ShapeError Settings :=
  entries.foldlM (fun s (name, v) => s.assign name v) s

/-- The settings that the value of `engine` gives. -/
def ofValue : Value → Except ShapeError Settings
  | .table _ entries => default.assignAll entries
  | .array items => default.assignAll (names.zip items)
  | .tables elements =>
    default.assignAll (names.zip (elements.map fun entries => .table .named entries))
  | .datetime => .ok default
  | v => .error (.invalidType (found v) "struct Config")

/-- The settings of a document. -/
def ofEntries (document : Entries) : Except ShapeError Settings :=
  match document.get? "engine" with
  | none => .ok default
  | some v => ofValue v

/-- Why a text gives no settings. -/
inductive TextError where
  | malformed
  | misshapen (e : ShapeError)
deriving DecidableEq, Repr

/-- The wording for a text that gives no settings. -/
def TextError.message : TextError → String
  | .malformed => "not a TOML document"
  | .misshapen e => e.message

/-- The settings that a text gives. -/
def ofText (text : String) : Except TextError Settings :=
  match document? text with
  | none => .error .malformed
  | some document =>
    match ofEntries document with
    | .error e => .error (.misshapen e)
    | .ok s => .ok s

end Settings

end Brainfuck
