import Brainfuck.Machine
import Brainfuck.Notice

/-!
# Brainfuck.Machine.Run

Running a machine on its own: step after step until the program ends, a step
fails, someone has asked to stop, or the step limit is reached.  The last two
are looked at before each step, in this order.

Nobody else touches the machine here, so the pause after a step only takes
time; `Brainfuck.Machine.Runner` is the same activity in atomic actions, for
when others act in between.  A run need not end, so it is given fuel: the
number of instructions it may execute.
-/

namespace Brainfuck

/-- How a run came to its end. -/
inductive Ending where
  | finished
  | failed (fault : Fault)
  | waiting
  | outOfFuel
deriving DecidableEq, Repr

/-- What a run leaves behind. -/
structure Run where
  ending : Ending
  machine : Machine
  seen : Array Step
  log : Array Notice

namespace Machine

/-- Why a run takes no further step, with what it logs then. -/
def halt? (m : Machine) : Option (Ending × List Notice) :=
  if m.isFinished then some (.finished, [.runFinished m.steps])
  else if m.device.wiring.cancelled then some (.failed (.cancelled m.ip), [.runCancelled m.ip])
  else
    match m.limit with
    | none => none
    | some limit => if limit ≤ m.steps then some (.failed (.stepLimit limit), []) else none

/-- Continues a run that has executed and logged this much. -/
def runFrom (m : Machine) (seen : Array Step) (log : Array Notice) : Nat → Run
  | 0 =>
    match m.halt? with
    | some (ending, last) => ⟨ending, m, seen, log ++ last.toArray⟩
    | none => ⟨.outOfFuel, m, seen, log⟩
  | fuel + 1 =>
    match m.halt? with
    | some (ending, last) => ⟨ending, m, seen, log ++ last.toArray⟩
    | none =>
      match m.step with
      | (.stepped s, next) => next.runFrom (seen.push s) (log.push (.stepTaken s)) fuel
      | (.failed fault, next) => ⟨.failed fault, next, seen, log⟩
      | (.waiting, next) => ⟨.waiting, next, seen, log⟩
      | (.finished, next) => ⟨.finished, next, seen, log⟩

/-- Runs a machine for at most `fuel` instructions. -/
def run (m : Machine) (fuel : Nat) : Run :=
  m.runFrom #[] #[.runStarted m.program.size m.ip m.delay] fuel

end Machine

end Brainfuck
