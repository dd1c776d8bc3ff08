import Brainfuck.Command.Job

/-!
# Brainfuck.Command.Timeline

A job by the clock.  `Job` leaves open when things happen; a timeline decides it:

* the clerk goes first, and the worker acts whenever the clerk has to wait;
* a delay ends when its time has passed, or as soon as someone has asked to stop;
* the time is up when the time allowed has passed since the start.

`Timeline.next` makes these decisions from the clock reading alone, so the same
rules hold for a real clock and for an imagined one.  `Timeline.run` is the
imagined one: every action of the worker takes the same short time, everything
else takes none, and waiting makes the clock jump ahead.

Times are in nanoseconds.
-/

namespace Brainfuck

/-- Nanoseconds in a millisecond. -/
def millisecond : Nat := 1000000

/-- A job, the clock, and the appointments. -/
structure Timeline where
  job : Job
  now : Nat
  /-- When the delay ends in which the machine sits. -/
  wake : Nat
  /-- The user asks to stop a moment after this much output is there. -/
  patience : Option Nat
  alarm : Option Nat

/-- What a timeline does next. -/
inductive Move where
  | act (e : Event)
  | wait (time : Option Nat)
  | stop (code : Nat)
deriving DecidableEq, Repr

namespace Timeline

/-- A job at the start of its time. -/
def start (job : Job) (patience : Option Nat) : Timeline := ⟨job, 0, 0, patience, none⟩

/-- When the time is up. -/
def deadline? (t : Timeline) : Option Nat :=
  if t.job.order.timeout = 0 then none else some (t.job.order.timeout * millisecond)

/-- Whether a time has come. -/
def reached (t : Timeline) : Option Nat → Bool
  | none => false
  | some time => time ≤ t.now

/-- Whether the machine sits in a delay that has not ended. -/
def isResting (t : Timeline) : Bool :=
  t.job.runner.isPausing && !t.job.wiring.cancelled && t.now < t.wake

/-- Whether the worker can act now. -/
def canWork (t : Timeline) : Bool :=
  t.job.duty != .gone && !t.isResting && !t.job.runner.isBlocked

/-- The earlier of two times. -/
def earlier : Option Nat → Option Nat → Option Nat
  | none, b => b
  | a, none => a
  | some a, some b => some (min a b)

/-- The next time at which something happens by itself. -/
def nextTime (t : Timeline) : Option Nat :=
  earlier (if t.isResting then some t.wake else none)
    (earlier t.alarm (if t.job.stage = .draining then t.deadline? else none))

/-- Lets the worker act if it can, and waits if it cannot. -/
def workOrWait (t : Timeline) : Move := if t.canWork then .act .work else .wait t.nextTime

/-- What happens next. -/
def next (t : Timeline) : Move :=
  if t.reached t.alarm then .act .interrupt
  else
    match t.job.stage with
    | .draining =>
      if t.reached t.deadline? then .act .expire
      else if t.job.wiring.hasOutput || t.job.wiring.output.closed then .act .drain
      else t.workOrWait
    | .polling => .act .poll
    | .stopping _ => if t.job.channel.isSome then .act .collect else t.workOrWait
    | .flushing _ => .act .leave
    | .reporting _ => .act .leave
    | .ending _ => .act .leave
    | .exited code => .stop code

/-- Makes the appointments that follow from an event: the end of a delay that has
just begun, and the moment at which the user asks to stop. -/
def arrange (t : Timeline) (wasPausing : Bool) (e : Event) : Timeline :=
  match t with
  | ⟨job, now, wake, patience, alarm⟩ =>
    let wake :=
      if !wasPausing && job.runner.isPausing then now + job.runner.machine.delay * millisecond
      else wake
    match e, patience with
    | .interrupt, patience => ⟨job, now, wake, patience, none⟩
    | _, none => ⟨job, now, wake, none, alarm⟩
    | _, some n =>
      if n ≤ job.stdout.written.size then ⟨job, now, wake, none, some (now + millisecond)⟩
      else ⟨job, now, wake, some n, alarm⟩

/-- Lets an event happen. -/
def act (t : Timeline) (e : Event) : Timeline :=
  match t with
  | ⟨job, now, wake, patience, alarm⟩ =>
    let wasPausing := job.runner.isPausing
    (⟨job.act e, now, wake, patience, alarm⟩ : Timeline).arrange wasPausing e

/-- How long an action of the worker takes on the imagined clock. -/
def actionTime : Nat := 125

/-- Lets an event happen and take its time on the imagined clock. -/
def elapse (t : Timeline) (e : Event) : Timeline :=
  let t := t.act e
  match e with
  | .work => { t with now := t.now + actionTime }
  | _ => t

/-- Follows the imagined clock until the job is over, for at most so many moves. -/
def run : Nat → Timeline → Timeline
  | 0, t => t
  | fuel + 1, t =>
    match t.next with
    | .act e => run fuel (t.elapse e)
    | .wait (some time) => run fuel { t with now := max t.now time }
    | .wait none => t
    | .stop _ => t

end Timeline

end Brainfuck
