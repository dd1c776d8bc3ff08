import Brainfuck.Device
import Brainfuck.Program
import Brainfuck.Action
import Brainfuck.Fault
import Brainfuck.Text.Duration

/-!
# Brainfuck.Machine

A program bound to the device it works on, and one step of it.

A step executes the character at the current position and then advances by one.
A jump moves the position to the partner bracket first, so execution goes on
behind it.  A step that fails, or has to wait for input, leaves the machine
exactly as it was.
-/

namespace Brainfuck

open Text

/-- What a bracket without a partner does. -/
inductive BracketMode where
  /-- Execution goes on behind it. -/
  | permissive
  /-- The step fails. -/
  | strict
deriving DecidableEq, Repr

/-- The word for a bracket mode, as settings spell it. -/
def BracketMode.word : BracketMode → String
  | .permissive => "permissive"
  | .strict => "strict"

/-- A program at work. -/
structure Machine where
  program : Program
  ip : Nat
  device : Device
  /-- The pause after each step of a run, in milliseconds. -/
  delay : Nat
  /-- A run stops once this many steps have been taken in total. -/
  limit : Option Nat
  mode : BracketMode
  steps : Nat

/-- What one step comes to. -/
inductive StepResult where
  | finished
  | waiting
  | failed (fault : Fault)
  | stepped (step : Step)
deriving DecidableEq, Repr

namespace Machine

/-- A program at its start, with no delay, no limit and no insistence on
partners. -/
def load (program : Program) (device : Device) : Machine :=
  ⟨program, 0, device, 0, none, .permissive, 0⟩

/-- Whether the program has ended. -/
def isFinished (m : Machine) : Bool := m.program.size ≤ m.ip

/-- The next instruction. -/
def current? (m : Machine) : Option Char := m.program.at? m.ip

/-- Changes the wiring of a machine. -/
def mapWiring (m : Machine) (f : Wiring → Wiring) : Machine :=
  { m with device := { m.device with wiring := f m.device.wiring } }

/-- Lets an operation of the device give its answer and change the device. -/
def onDevice {α : Type} (m : Machine) (f : Device → α × Device) : α × Machine :=
  let (a, d) := f m.device
  (a, { m with device := d })

/-- The record of executing the instruction `c` now, before it is known what it does. -/
def sight (m : Machine) (c : Char) : Step :=
  ⟨m.ip, c, m.device.tape.pointer, m.device.tape.value, .ignored⟩

/-- An instruction was executed and ends at position `ip`: execution goes on
behind it. -/
def proceed (m : Machine) (ip : Nat) (s : Step) : StepResult × Machine :=
  (.stepped s, { m with ip := ip + 1, steps := m.steps + 1 })

/-- A bracket found no partner. -/
def unmatched (m : Machine) (s : Step) (bracket : Bracket) : StepResult × Machine :=
  match m.mode with
  | .strict => (.failed (.unmatchedBracket m.ip bracket), m)
  | .permissive => m.proceed s.ip { s with action := .fellThrough }

/-- Executes the instruction `c`. -/
def execute (m : Machine) (c : Char) : StepResult × Machine :=
  let s := m.sight c
  match Instruction.ofChar c with
  | .move dir =>
    match m.onDevice (·.move dir) with
    | (some _, m) => (.failed (.pointerOutOfBounds s.ip s.pointer c), m)
    | (none, m) => m.proceed s.ip { s with action := .moved m.device.tape.pointer }
  | .increment =>
    { m with device := m.device.increment }.proceed s.ip
      { s with action := .incremented s.cell (s.cell + 1) }
  | .decrement =>
    { m with device := m.device.decrement }.proceed s.ip
      { s with action := .decremented s.cell (s.cell - 1) }
  | .write =>
    { m with device := m.device.write }.proceed s.ip { s with action := .wrote s.cell }
  | .read =>
    match m.onDevice (·.read) with
    | (.waiting, m) => (.waiting, m)
    | (.refused _, m) => (.failed (.cancelled s.ip), m)
    | (.done, m) => m.proceed s.ip { s with action := .read m.device.tape.value }
  | .loopStart =>
    if s.cell = 0 then
      match m.program.firstClose? s.ip with
      | some j => m.proceed j { s with action := .jumpedForward j }
      | none => m.unmatched s .opening
    else m.proceed s.ip { s with action := .enteredLoop }
  | .loopEnd =>
    if s.cell = 0 then m.proceed s.ip { s with action := .exitedLoop }
    else
      match m.program.lastOpen? s.ip with
      | some j => m.proceed j { s with action := .jumpedBack j }
      | none => m.unmatched s .closing
  | .comment => m.proceed s.ip s

/-- Executes the next instruction. -/
def step (m : Machine) : StepResult × Machine :=
  match m.current? with
  | none => (.finished, m)
  | some c => m.execute c

/-- Whether the next instruction waits for input that may still come. -/
def isWaiting (m : Machine) : Bool :=
  match m.current? with
  | some ',' =>
    match m.device.wiring.intake with
    | .waiting => true
    | _ => false
  | _ => false

/-- The inspection form of a machine. -/
def inspect (m : Machine) : String :=
  Text.record "Engine"
    [("source", Text.quoted m.program.text),
     ("program", listing (m.program.chars.toList.map quotedChar)),
     ("ip", decimal m.ip),
     ("tape", m.device.inspect),
     ("step_delay", duration m.delay),
     ("max_steps", match m.limit with
       | none => "None"
       | some n => "Some(" ++ decimal n ++ ")"),
     ("bracket_mode", m.mode.word.capitalize),
     ("steps", decimal m.steps)]

end Machine

end Brainfuck
