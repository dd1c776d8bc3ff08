import Brainfuck.Machine.Conversation

/-!
# Brainfuck.Session

Working with a tape by hand.  A session owns a tape, or a machine bound to one,
or only the connections of a tape that has been dropped, and offers every
operation on them.  Which operations apply depends on what it owns:

* the handles to input, output and the cancel flag, and the change feeds, always;
* a look at the tape, and subscribing to it, while there is one;
* changing the tape by hand only while no machine is bound to it;
* stepping, running and setting up only while a machine is.

Nobody else can supply input during an operation, so one that would wait for
input is cancelled instead.
-/

namespace Brainfuck

/-- What a session owns. -/
inductive Session where
  | tape (device : Device)
  | machine (machine : Machine)
  /-- What is left of a tape that has been dropped. -/
  | dropped (wiring : Wiring)

/-- Operations through the handles of a tape. -/
inductive HandleOp where
  | supply (bytes : List UInt8)
  | closeInput
  | closeOutput
  | hasOutput
  /-- Take a byte of output, unless that means to wait. -/
  | drain
  | drainNow
  | drainAll
  | emitted
  | cancel
  | reset
  | isCancelled
  | pause
deriving DecidableEq, Repr

/-- Operations on a change feed. -/
inductive FeedOp where
  | receive
  | receiveAll
  | unsubscribe
deriving DecidableEq, Repr

/-- Operations that look at a tape. -/
inductive ViewOp where
  | value
  | valueAt (index : Nat)
  | capacity
  | policy
  | inspect
  | subscribe
deriving DecidableEq, Repr

/-- Operations that change a tape by hand. -/
inductive TapeOp where
  | move (direction : Direction)
  | increment
  | decrement
  | write
  | read
  | load (program : Program)
deriving DecidableEq, Repr

/-- Operations on a machine. -/
inductive MachineOp where
  | step (count : Nat)
  | run
  | converse (requests : List Request)
  | setLimit (limit : Option Nat)
  | setDelay (ms : Nat)
  | setMode (mode : BracketMode)
  | describe
  | inspect
  | release
deriving DecidableEq, Repr

/-- All operations of a session. -/
inductive Op where
  | handle (op : HandleOp)
  /-- The same through the tape, which must be there. -/
  | handleOfTape (op : HandleOp)
  | feed (id : Nat) (op : FeedOp)
  | view (op : ViewOp)
  | tape (op : TapeOp)
  | machine (op : MachineOp)
  | drop
deriving DecidableEq, Repr

/-- What an operation answers. -/
inductive Answer where
  | nothing
  /-- It could have failed and did not. -/
  | ok
  | refused (reason : Refusal)
  | wouldBlock
  | flag (b : Bool)
  | number (n : Nat)
  | text (s : String)
  | bytes (bs : List UInt8)
  | drained (b : Option UInt8)
  | change (c : Option Change)
  | changes (cs : List Change)
  | steps (results : List StepResult)
  | ran (run : Run)
  /-- The replies to a partner, and the fault with which the run returned. -/
  | conversed (replies : List Reply) (fault : Option Fault)
  | description (machine : Machine)

/-- What an operation leaves behind. -/
structure Outcome where
  answer : Answer
  session : Session
  log : Array Notice

namespace Session

/-- The connections, which a session always has. -/
def wiring : Session → Wiring
  | .tape d => d.wiring
  | .machine m => m.device.wiring
  | .dropped p => p

/-- Changes the connections. -/
def mapWiring (s : Session) (f : Wiring → Wiring) : Session :=
  match s with
  | .tape d => .tape { d with wiring := f d.wiring }
  | .machine m => .machine (m.mapWiring f)
  | .dropped p => .dropped (f p)

/-- The tape, unless it has been dropped. -/
def device? : Session → Option Device
  | .tape d => some d
  | .machine m => some m.device
  | .dropped _ => none

/-- An answer that logs nothing and leaves the session as it is. -/
def tell (s : Session) (a : Answer) : Outcome := ⟨a, s, #[]⟩

/-- Carries out an operation through a handle. -/
def handle (s : Session) : HandleOp → Outcome
  | .supply bytes => (s.mapWiring (·.supply bytes)).tell .nothing
  | .closeInput => (s.mapWiring .closeInput).tell .nothing
  | .closeOutput => (s.mapWiring .closeOutput).tell .nothing
  | .hasOutput => s.tell (.flag s.wiring.hasOutput)
  | .drain =>
    match s.wiring.drain with
    | .byte b rest => (s.mapWiring fun _ => rest).tell (.drained (some b))
    | .ended => s.tell (.drained none)
    | .waiting => s.tell .wouldBlock
  | .drainNow =>
    match s.wiring.drain with
    | .byte b rest => (s.mapWiring fun _ => rest).tell (.drained (some b))
    | _ => s.tell (.drained none)
  | .drainAll =>
    let (bytes, rest) := s.wiring.drainAll
    (s.mapWiring fun _ => rest).tell (.bytes bytes)
  | .emitted => s.tell (.bytes s.wiring.emitted)
  | .cancel => ⟨.nothing, s.mapWiring .cancel, #[.cancelRequested]⟩
  | .reset => (s.mapWiring .reset).tell .nothing
  | .isCancelled => s.tell (.flag s.wiring.cancelled)
  | .pause => s.tell (if s.wiring.cancelled then .refused .cancelled else .ok)

/-- Carries out an operation on a change feed. -/
def feed? (s : Session) (id : Nat) : FeedOp → Option Outcome
  | .receive =>
    (s.wiring.audience.receive? id).map fun (c, a) =>
      (s.mapWiring fun p => { p with audience := a }).tell (.change c)
  | .receiveAll =>
    (s.wiring.audience.receiveAll? id).map fun (cs, a) =>
      (s.mapWiring fun p => { p with audience := a }).tell (.changes cs)
  | .unsubscribe =>
    if s.wiring.audience.has id then
      some ((s.mapWiring fun p => { p with audience := p.audience.unsubscribe id }).tell .nothing)
    else none

/-- Carries out a look at the tape. -/
def view (s : Session) (d : Device) : ViewOp → Outcome
  | .value => s.tell (.number d.tape.value.toNat)
  | .valueAt index =>
    match d.valueAt index with
    | .error reason => s.tell (.refused reason)
    | .ok v => s.tell (.number v.toNat)
  | .capacity => s.tell (.number d.tape.capacity)
  | .policy => s.tell (.text d.tape.policy.word)
  | .inspect => s.tell (.text d.inspect)
  | .subscribe =>
    let (id, a) := d.wiring.audience.subscribe
    (s.mapWiring fun p => { p with audience := a }).tell (.number id)

/-- Carries out a change of the tape by hand. -/
def byHand (d : Device) : TapeOp → Outcome
  | .move dir =>
    match d.move dir with
    | (some reason, d) => (Session.tape d).tell (.refused reason)
    | (none, d) => (Session.tape d).tell .ok
  | .increment => (Session.tape d.increment).tell .nothing
  | .decrement => (Session.tape d.decrement).tell .nothing
  | .write => (Session.tape d.write).tell .nothing
  | .read =>
    match d.read with
    | (.done, d) => (Session.tape d).tell .ok
    | (.refused reason, d) => (Session.tape d).tell (.refused reason)
    | (.waiting, d) =>
      ⟨.refused .cancelled, .tape { d with wiring := d.wiring.cancel }, #[.cancelRequested]⟩
  | .load program => (Session.machine (.load program d)).tell .nothing

/-- Takes up to `count` steps, behind those whose results and log are given. -/
def stepping (m : Machine) (results : List StepResult) (log : Array Notice) : Nat → Outcome
  | 0 => ⟨.steps results.reverse, .machine m, log⟩
  | count + 1 =>
    match m.step with
    | (.stepped s, m) => stepping m (.stepped s :: results) (log.push (.stepTaken s)) count
    | (.waiting, m) =>
      ⟨.steps (.failed (.cancelled m.ip) :: results).reverse, .machine (m.mapWiring .cancel),
        log.push .cancelRequested⟩
    | (result, m) => ⟨.steps (result :: results).reverse, .machine m, log⟩

/-- Runs a machine.  If it comes to wait for input, it is cancelled there. -/
def running (fuel : Nat) (m : Machine) : Outcome :=
  let r := m.run fuel
  match r.ending with
  | .waiting =>
    let m := r.machine.mapWiring .cancel
    let r := { r with
      ending := .failed (.cancelled m.ip), machine := m, log := r.log.push .cancelRequested }
    ⟨.ran r, .machine m, r.log⟩
  | _ => ⟨.ran r, .machine r.machine, r.log⟩

/-- Carries out an operation on a machine. -/
def onMachine (fuel : Nat) (m : Machine) : MachineOp → Outcome
  | .step count => stepping m [] #[] count
  | .run => running fuel m
  | .converse requests =>
    let (replies, c) := Conversation.hold fuel m requests
    ⟨.conversed replies (c.runner.result?.getD none), .machine c.runner.machine, c.log⟩
  | .setLimit limit => (Session.machine { m with limit := limit }).tell .nothing
  | .setDelay ms => (Session.machine { m with delay := ms }).tell .nothing
  | .setMode mode => (Session.machine { m with mode := mode }).tell .nothing
  | .describe => (Session.machine m).tell (.description m)
  | .inspect => (Session.machine m).tell (.text m.inspect)
  | .release => (Session.tape m.device).tell .nothing

/-- Carries out an operation, if it applies to what the session owns.  A run
executes at most `fuel` instructions. -/
def perform (fuel : Nat) (s : Session) : Op → Option Outcome
  | .handle op => some (s.handle op)
  | .handleOfTape op => s.device?.map fun _ => s.handle op
  | .feed id op => s.feed? id op
  | .view op => s.device?.map fun d => s.view d op
  | .tape op =>
    match s with
    | .tape d => some (byHand d op)
    | _ => none
  | .machine op =>
    match s with
    | .machine m => some (onMachine fuel m op)
    | _ => none
  | .drop => some ((Session.dropped s.wiring).tell .nothing)

end Session

end Brainfuck
