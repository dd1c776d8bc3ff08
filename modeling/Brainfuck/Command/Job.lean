import Brainfuck.Machine.Runner
import Brainfuck.Trace
import Brainfuck.Report
import Brainfuck.Command.Sink

/-!
# Brainfuck.Command.Job

One run of a program by the command, as two parties that act in turns nobody
controls.

* The **worker** runs the machine.  When the run has returned it first sends the
  result, and then closes the output.
* The **clerk** carries output to the sink byte by byte.  When there is none to
  carry it looks for the result.  When the time is up, or the sink fails, it
  asks the machine to stop and waits a while for the result.  In the end it
  carries what output is left, says what went wrong, and ends the line.

Each `Event` is one atomic action of either party, or of the user; an event that
cannot happen now changes nothing.  Everything that can happen to a job is a list
of events, whatever the speed of the parties (`Job.play`).

In debug mode it is the worker that writes to the sink: the table of steps.  The
clerk then throws the output away.
-/

namespace Brainfuck

open Text

/-- What is to be run, and how. -/
structure Order where
  name : String
  code : String
  debug : Bool
  /-- The time allowed, in milliseconds; zero stands for any. -/
  timeout : Nat
deriving DecidableEq, Repr

/-- What the worker does next. -/
inductive Duty where
  /-- Begin, in debug mode with the head of the table. -/
  | heading
  | running
  | sending
  | closing
  | gone
deriving DecidableEq, Repr

/-- Why the clerk has asked the machine to stop. -/
inductive StopCause where
  | deadline
  | sinkFailed
deriving DecidableEq, Repr

/-- What is known in the end: the fault, or its absence, with which the run
returned, if it returned in time. -/
structure Verdict where
  result : Option (Option Fault)
  timedOut : Bool
deriving DecidableEq, Repr

/-- What the clerk does next. -/
inductive Stage where
  | draining
  | polling
  /-- Wait for the result, having asked the machine to stop. -/
  | stopping (cause : StopCause)
  | flushing (verdict : Verdict)
  | reporting (verdict : Verdict)
  | ending (code : Nat)
  | exited (code : Nat)
deriving DecidableEq, Repr

/-- A job in progress. -/
structure Job where
  order : Order
  runner : Runner
  duty : Duty
  rows : Nat
  /-- The result that has been sent and not been received. -/
  channel : Option (Option Fault)
  stage : Stage
  stdout : Sink
  stderr : String

/-- What can happen to a job. -/
inductive Event where
  | work
  | feed (bytes : List UInt8)
  | endInput
  | interrupt
  /-- The clerk carries a byte, or sees that the output is closed. -/
  | drain
  /-- The clerk has waited for a byte long enough. -/
  | giveUp
  | poll
  | expire
  | collect
  /-- The clerk has waited for the result long enough. -/
  | abandon
  /-- The clerk does one of the last three things. -/
  | leave
deriving DecidableEq, Repr

/-- What is said in the end, and the exit code. -/
def Order.farewell (o : Order) (v : Verdict) : String × Nat :=
  match v.result with
  | some none => ("", 0)
  | some (some (.stepLimit limit)) =>
    ("Execution aborted: step limit exceeded (" ++ decimal limit ++ ")\n", 1)
  | some (some (.cancelled _)) =>
    (if v.timedOut then late else "Execution aborted: cancelled\n", 1)
  | some (some fault) => ((Report.ofFault (some o.name) o.code fault).getD "", 1)
  | none => (if v.timedOut then late else "", 1)
where
  /-- What is said when the time was up. -/
  late : String := "Execution aborted: wall-clock timeout exceeded (" ++ decimal o.timeout ++ " ms)\n"

namespace Job

/-- A job that is about to begin. -/
def start (o : Order) (m : Machine) (stdout : Sink) : Job :=
  ⟨o, .start m, .heading, 0, none, .draining, stdout, ""⟩

/-- The connections of the machine. -/
def wiring (j : Job) : Wiring := j.runner.wiring

/-- Changes the connections of the machine. -/
def mapWiring (j : Job) (f : Wiring → Wiring) : Job := { j with runner := j.runner.mapWiring f }

/-! ## the worker -/

/-- Writes lines of the table.  If that fails the machine is asked to stop. -/
def print (j : Job) (lines : String) : Job :=
  match j.stdout.write lines.toUTF8.data.toList with
  | (true, sink) => { j with stdout := sink }
  | (false, sink) => { j with stdout := sink }.mapWiring .cancel

/-- The worker begins. -/
def head (j : Job) : Job :=
  let j := { j with duty := .running }
  if j.order.debug then j.print (Trace.header ++ "\n" ++ Trace.rule ++ "\n") else j

/-- The run does its next action. -/
def advance (j : Job) : Job :=
  match j with
  | ⟨order, runner, duty, rows, channel, stage, stdout, stderr⟩ =>
    match runner.advance with
    | (.moved (some (.stepTaken s)), r) =>
      if order.debug then
        (⟨order, r, duty, rows + 1, channel, stage, stdout, stderr⟩ : Job).print
          (Trace.row rows s ++ "\n")
      else ⟨order, r, duty, rows, channel, stage, stdout, stderr⟩
    | (.over, r) => ⟨order, r, .sending, rows, channel, stage, stdout, stderr⟩
    | (_, r) => ⟨order, r, duty, rows, channel, stage, stdout, stderr⟩

/-- The worker does its next action. -/
def work (j : Job) : Job :=
  match j.duty with
  | .heading => j.head
  | .running => j.advance
  | .sending => { j with channel := j.runner.result?, duty := .closing }
  | .closing => { j with duty := .gone }.mapWiring .closeOutput
  | .gone => j

/-! ## the clerk -/

/-- The clerk has a byte of output. -/
def carry (j : Job) (b : UInt8) : Job :=
  if j.order.debug then j
  else
    match j.stdout.write [b] with
    | (true, sink) => { j with stdout := sink }
    | (false, sink) => { j with stdout := sink, stage := .stopping .sinkFailed }.mapWiring .cancel

/-- The clerk carries a byte, or sees that the output is closed. -/
def drain (j : Job) : Job :=
  match j.wiring.drain with
  | .byte b rest => (j.mapWiring fun _ => rest).carry b
  | .ended => { j with stage := .polling }
  | .waiting => j

/-- The clerk looks for the result. -/
def poll (j : Job) : Job :=
  match j.channel with
  | some result => { j with channel := none, stage := .flushing ⟨some result, false⟩ }
  | none => { j with stage := .draining }

/-- The clerk goes on with the result for which it has waited, or without it. -/
def stopped (j : Job) (result : Option (Option Fault)) : StopCause → Job
  | .deadline => { j with channel := none, stage := .flushing ⟨result, true⟩ }
  | .sinkFailed => { j with channel := none, stage := .exited 1 }

/-- The clerk carries what output is left. -/
def flush (j : Job) (v : Verdict) : Job :=
  if j.order.debug then { j with stage := .reporting v }
  else
    let (left, rest) := j.wiring.drainAll
    let j := j.mapWiring fun _ => rest
    match j.stdout.write left with
    | (true, sink) => { j with stdout := sink, stage := .reporting v }
    | (false, sink) => { j with stdout := sink, stage := .exited 1 }

/-- The clerk says what went wrong. -/
def report (j : Job) (v : Verdict) : Job :=
  let (message, code) := j.order.farewell v
  { j with stderr := j.stderr ++ message, stage := .ending code }

/-- The byte that ends a line. -/
def newline : UInt8 := 10

/-- The clerk ends the line. -/
def finish (j : Job) (code : Nat) : Job :=
  match j.stdout.write [newline] with
  | (true, sink) => { j with stdout := sink, stage := .exited code }
  | (false, sink) => { j with stdout := sink, stage := .exited 1 }

/-! ## events -/

/-- What an event does. -/
def act (j : Job) (e : Event) : Job :=
  match e with
  | .work => j.work
  | .feed bytes => j.mapWiring (·.supply bytes)
  | .endInput => j.mapWiring .closeInput
  | .interrupt => j.mapWiring .cancel
  | .drain => if j.stage = .draining then j.drain else j
  | .giveUp => if j.stage = .draining ∧ ¬ j.wiring.hasOutput then { j with stage := .polling } else j
  | .poll => if j.stage = .polling then j.poll else j
  | .expire =>
    if j.stage = .draining ∧ 0 < j.order.timeout then
      { j with stage := .stopping .deadline }.mapWiring .cancel
    else j
  | .collect =>
    match j.stage, j.channel with
    | .stopping cause, some result => j.stopped (some result) cause
    | _, _ => j
  | .abandon =>
    match j.stage with
    | .stopping cause => j.stopped none cause
    | _ => j
  | .leave =>
    match j.stage with
    | .flushing v => j.flush v
    | .reporting v => j.report v
    | .ending code => j.finish code
    | _ => j

/-- What a list of events does. -/
def play (j : Job) (events : List Event) : Job := events.foldl act j

/-- The exit code of a job that is over. -/
def exit? (j : Job) : Option Nat :=
  match j.stage with
  | .exited code => some code
  | _ => none

end Job

end Brainfuck
