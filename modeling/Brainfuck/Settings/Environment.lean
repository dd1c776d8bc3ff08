import Brainfuck.Settings
import Brainfuck.Notice
import Brainfuck.Text.Blank
import Brainfuck.Text.Utf8

/-!
# Brainfuck.Settings.Environment

Settings from environment variables.  The variables are looked at in a fixed
order; white space around a value does not matter.  The first value that cannot
be read ends it, and what the variables before it have set stays set.

Where the values come from, an `Environment`, they are bytes.  A value that is no
text is not seen at all.
-/

namespace Brainfuck

open Text

/-- The environment variables of a process. -/
structure Environment where
  bytes? : String → Option ByteArray

namespace Environment

variable {e : Environment} {key raw : String}

/-- The value of a variable that is there and is a text. -/
def text? (e : Environment) (key : String) : Option String := (e.bytes? key).bind String.fromUTF8?

/-- The environment that gives each variable this text. -/
def ofTexts (lookup : String → Option String) : Environment :=
  ⟨fun key => (lookup key).map String.toUTF8⟩

instance : Coe (String → Option String) Environment := ⟨ofTexts⟩

/-- The environment in a block of entries `name=value` with a zero byte behind each. -/
def ofBlock (block : ByteArray) : Environment where
  bytes? key :=
    (block.toList.splitOn 0).findSome? fun entry =>
      ((key ++ "=").toUTF8.toList.isPrefixOf? entry).map fun value => ⟨value.toArray⟩

end Environment

/-- The variables, one for each setting. -/
inductive Variable where
  | tapeSize
  | stepDelay
  | maxSteps
  | timeout
  | pointerPolicy
  | bracketMode
deriving DecidableEq, Repr

namespace Variable

/-- The name of a variable. -/
def key : Variable → String
  | .tapeSize => "BF_TAPE_SIZE"
  | .stepDelay => "BF_STEP_DELAY_MS"
  | .maxSteps => "BF_MAX_STEPS"
  | .timeout => "BF_TIMEOUT_MS"
  | .pointerPolicy => "BF_POINTER_POLICY"
  | .bracketMode => "BF_BRACKET_MODE"

/-- All variables, in the order in which they are looked at. -/
def all : List Variable := [.tapeSize, .stepDelay, .maxSteps, .timeout, .pointerPolicy, .bracketMode]

/-- Sets the field of a variable to what a value without white space around it
denotes, if it denotes anything. -/
def assign? (v : Variable) (s : Settings) (value : String) : Option Settings :=
  match v with
  | .tapeSize => (readWord value).toOption.map fun n => { s with tapeSize := n }
  | .stepDelay => (readWord value).toOption.map fun n => { s with stepDelay := n }
  | .maxSteps => (readWord value).toOption.map fun n => { s with maxSteps := some n }
  | .timeout => (readWord value).toOption.map fun n => { s with timeout := n }
  | .pointerPolicy => (PointerPolicy.ofWord value).toOption.map fun p => { s with pointerPolicy := p }
  | .bracketMode => (BracketMode.ofWord value).toOption.map fun m => { s with bracketMode := m }

end Variable

/-- A variable whose value denotes nothing. -/
structure InvalidVariable where
  key : String
  /-- Its value, white space included. -/
  value : String
deriving DecidableEq, Repr

/-- The wording for an invalid variable. -/
def InvalidVariable.message (e : InvalidVariable) : String :=
  "invalid value for " ++ e.key ++ ": '" ++ e.value ++ "'"

/-- What looking at the environment comes to. -/
structure Overridden where
  settings : Settings
  invalid : Option InvalidVariable
  /-- The variables that were there, in order. -/
  log : List Notice
deriving DecidableEq, Repr

namespace Settings

/-- Looks at some variables, in order. -/
def override (lookup : String → Option String) : List Variable → Settings → Overridden
  | [], s => ⟨s, none, []⟩
  | v :: rest, s =>
    match lookup v.key with
    | none => override lookup rest s
    | some raw =>
      match v.assign? s (trim raw) with
      | none => ⟨s, some ⟨v.key, raw⟩, [.variableUsed v.key raw]⟩
      | some s =>
        let later := override lookup rest s
        { later with log := .variableUsed v.key raw :: later.log }

/-- Looks at all variables. -/
def ofEnvironment (s : Settings) (lookup : String → Option String) : Overridden :=
  override lookup Variable.all s

end Settings

end Brainfuck
