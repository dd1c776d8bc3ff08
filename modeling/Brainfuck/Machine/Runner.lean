import Brainfuck.Machine.Run

/-!
# Brainfuck.Machine.Runner

A run in atomic actions, so that others can act between any two of them: ask
whether the program has ended, whether someone has asked to stop, whether the
step limit is reached, execute one instruction, sit out the delay, and start
again.

Each call of `Runner.advance` is one such action.  A runner that waits for
input cannot advance until its wiring has changed.  A runner in a delay always
can: the action is the end of the delay, and it finds out whether the delay was
sat out or cut short.
-/

namespace Brainfuck

/-- The next atomic action of a run. -/
inductive Phase where
  | testEnd
  | testCancel
  | testLimit
  | execute
  | pause
  | returned (fault : Option Fault)
deriving DecidableEq, Repr

/-- A run in progress. -/
structure Runner where
  machine : Machine
  phase : Phase

/-- What an atomic action comes to.  There is none while an instruction waits for input,
and none once the run has returned. -/
inductive Progress where
  | blocked
  | over
  /-- The action was done, and this is what there is to log about it. -/
  | moved (notice : Option Notice)
deriving DecidableEq, Repr

namespace Runner

/-- A run that is about to begin. -/
def start (m : Machine) : Runner := ⟨m, .testEnd⟩

/-- The fault, or its absence, with which a run has returned. -/
def result? (r : Runner) : Option (Option Fault) :=
  match r.phase with
  | .returned fault => some fault
  | _ => none

/-- Whether the runner sits in a delay. -/
def isPausing (r : Runner) : Bool := r.phase == .pause

/-- Whether the runner cannot go on before more input comes. -/
def isBlocked (r : Runner) : Bool := r.phase == .execute && r.machine.isWaiting

/-- Changes the wiring of the machine that runs. -/
def mapWiring (r : Runner) (f : Wiring → Wiring) : Runner := { r with machine := r.machine.mapWiring f }

/-- The connections of the machine that runs. -/
def wiring (r : Runner) : Wiring := r.machine.device.wiring

/-- Does the next atomic action. -/
def advance (r : Runner) : Progress × Runner :=
  match r.phase with
  | .testEnd =>
    if r.machine.isFinished then
      (.moved (some (.runFinished r.machine.steps)), { r with phase := .returned none })
    else (.moved none, { r with phase := .testCancel })
  | .testCancel =>
    if r.wiring.cancelled then
      (.moved (some (.runCancelled r.machine.ip)),
        { r with phase := .returned (some (.cancelled r.machine.ip)) })
    else (.moved none, { r with phase := .testLimit })
  | .testLimit =>
    match r.machine.limit with
    | none => (.moved none, { r with phase := .execute })
    | some limit =>
      if limit ≤ r.machine.steps then
        (.moved none, { r with phase := .returned (some (.stepLimit limit)) })
      else (.moved none, { r with phase := .execute })
  | .execute =>
    match r.machine.step with
    | (.waiting, m) => (.blocked, ⟨m, .execute⟩)
    | (.finished, m) => (.moved none, ⟨m, .testEnd⟩)
    | (.failed fault, m) => (.moved none, ⟨m, .returned (some fault)⟩)
    | (.stepped s, m) =>
      (.moved (some (.stepTaken s)), ⟨m, if m.delay = 0 then .testEnd else .pause⟩)
  | .pause =>
    if r.wiring.cancelled then
      (.moved none, { r with phase := .returned (some (.cancelled r.machine.ip)) })
    else (.moved none, { r with phase := .testEnd })
  | .returned _ => (.over, r)

end Runner

end Brainfuck
