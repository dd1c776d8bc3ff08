import Brainfuck.Machine.Runner

/-!
# Brainfuck.Machine.Conversation

A run with a partner at the other end of its wires: while the machine runs, the
partner supplies input, drains output and may cancel, one request after the
other.

The machine is always given time to come as far as it can on its own, that is,
until it waits for input, sits in a delay, or has returned.  A delay is sat out
only when the partner waits for output that is not there yet, or for the run to
return.  When the run returns, the output is closed, so the partner never waits
for a byte that cannot come.  An output that was closed before is never waited
for at all.
-/

namespace Brainfuck

/-- What a partner asks for. -/
inductive Request where
  | supply (bytes : List UInt8)
  | closeInput
  | cancel
  /-- Take this many bytes of output, waiting for each. -/
  | drain (count : Nat)
deriving DecidableEq, Repr

/-- What a partner gets. -/
inductive Reply where
  | done
  /-- The bytes of output; `none` stands where the run had returned and nothing was left. -/
  | drained (bytes : List (Option UInt8))
deriving DecidableEq, Repr

/-- A run in progress and what has been logged about it. -/
structure Conversation where
  runner : Runner
  log : Array Notice

namespace Conversation

/-- Changes the wiring between machine and partner. -/
def mapWiring (c : Conversation) (f : Wiring → Wiring) : Conversation :=
  { c with runner := c.runner.mapWiring f }

/-- Adds to the log. -/
def note (c : Conversation) (n : Notice) : Conversation := { c with log := c.log.push n }

/-- Does the next atomic action of the run, and closes the output once it has returned. -/
def act (c : Conversation) : Conversation :=
  match c.runner.advance with
  | (.moved (some n), r) => ⟨if r.result?.isSome then r.mapWiring .closeOutput else r, c.log.push n⟩
  | (_, r) => ⟨if r.result?.isSome then r.mapWiring .closeOutput else r, c.log⟩

/-- Whether the machine comes no further without its partner or the end of a delay. -/
def isSettled (c : Conversation) : Bool :=
  c.runner.isPausing || c.runner.result?.isSome || c.runner.isBlocked

/-- Lets the machine come as far as it can, within `fuel` actions. -/
def settle : Nat → Conversation → Conversation
  | 0, c => c
  | fuel + 1, c => if c.isSettled then c else settle fuel c.act

/-- Lets the machine come as far as it can, sitting out delays, until the test holds. -/
def awaiting (test : Conversation → Bool) : Nat → Conversation → Conversation
  | 0, c => c
  | fuel + 1, c =>
    if test c || c.runner.result?.isSome || c.runner.isBlocked then c
    else awaiting test fuel c.act

/-- Whether asking for a byte of output gets an answer at once. -/
def isAnswered (c : Conversation) : Bool :=
  c.runner.wiring.hasOutput || c.runner.wiring.output.closed

/-- Takes one byte of output, waiting for it. -/
def drainOne (fuel : Nat) (c : Conversation) : Option UInt8 × Conversation :=
  let c := awaiting isAnswered fuel c
  match c.runner.wiring.drain with
  | .byte b rest => (some b, c.mapWiring fun _ => rest)
  | _ => (none, c)

/-- Takes several bytes of output, waiting for each. -/
def drainMany (fuel : Nat) : Nat → Conversation → List (Option UInt8) × Conversation
  | 0, c => ([], c)
  | count + 1, c =>
    let (b, c) := drainOne fuel c
    let (bs, c) := drainMany fuel count c
    (b :: bs, c)

/-- Carries out one request. -/
def answer (fuel : Nat) (c : Conversation) (r : Request) : Reply × Conversation :=
  let c := settle fuel c
  match r with
  | .supply bytes => (.done, c.mapWiring (·.supply bytes))
  | .closeInput => (.done, c.mapWiring .closeInput)
  | .cancel => (.done, (c.mapWiring .cancel).note .cancelRequested)
  | .drain count =>
    let (bytes, c) := drainMany fuel count c
    (.drained bytes, c)

/-- Carries out all requests, in order. -/
def answerAll (fuel : Nat) : List Request → Conversation → List Reply × Conversation
  | [], c => ([], c)
  | r :: rest, c =>
    let (reply, c) := answer fuel c r
    let (replies, c) := answerAll fuel rest c
    (reply :: replies, c)

/-- Waits for the run to return.  A machine that still waits for input when the
partner has gone is cancelled. -/
def conclude (fuel : Nat) (c : Conversation) : Conversation :=
  let c := awaiting (fun _ => false) fuel c
  if c.runner.isBlocked then
    awaiting (fun _ => false) fuel ((c.mapWiring .cancel).note .cancelRequested)
  else c

/-- Runs a machine with a partner who makes these requests. -/
def hold (fuel : Nat) (m : Machine) (requests : List Request) : List Reply × Conversation :=
  let (replies, c) :=
    answerAll fuel requests ⟨.start m, #[.runStarted m.program.size m.ip m.delay]⟩
  (replies, conclude fuel c)

end Conversation

end Brainfuck
