import Brainfuck.Action
import Brainfuck.Text.Duration

/-!
# Brainfuck.Notice

What the library reports about its own work while it goes on, for whoever keeps
a log.
-/

namespace Brainfuck

open Text

/-- How much a notice matters. -/
inductive Level where
  | trace
  | debug
  | info
  | warn
deriving DecidableEq, Repr

/-- The word for a level. -/
def Level.word : Level → String
  | .trace => "TRACE"
  | .debug => "DEBUG"
  | .info => "INFO"
  | .warn => "WARN"

/-- Something worth a line in a log. -/
inductive Notice where
  | runStarted (size ip delay : Nat)
  | stepTaken (step : Step)
  /-- A run found, between two steps, that someone had asked to stop. -/
  | runCancelled (ip : Nat)
  | runFinished (steps : Nat)
  | cancelRequested
  | variableUsed (key value : String)
  | settingsLoaded (path : String)
  | settingsSkipped (reason : String)
deriving DecidableEq, Repr

namespace Notice

/-- How much a notice matters. -/
def level : Notice → Level
  | .runStarted .. => .debug
  | .stepTaken _ => .trace
  | .runCancelled _ => .debug
  | .runFinished _ => .debug
  | .cancelRequested => .debug
  | .variableUsed .. => .info
  | .settingsLoaded _ => .info
  | .settingsSkipped _ => .warn

/-- The wording of a notice. -/
def message : Notice → String
  | .runStarted size ip delay =>
    "run: " ++ decimal size ++ " instructions from ip " ++ decimal ip ++ ", delay " ++
      duration delay
  | .stepTaken s =>
    "ip=" ++ decimal s.ip ++ " op=" ++ s.instruction.toString ++ " ptr=" ++ decimal s.pointer ++
      " cell=" ++ decimal s.cell.toNat ++ " -> " ++ s.action.text
  | .runCancelled ip => "run cancelled at ip " ++ decimal ip
  | .runFinished steps => "run finished after " ++ decimal steps ++ " steps"
  | .cancelRequested => "cancellation requested"
  | .variableUsed key value => "Using " ++ key ++ " from environment: " ++ value
  | .settingsLoaded path => "Loaded config from " ++ path
  | .settingsSkipped reason => reason

end Notice

end Brainfuck
