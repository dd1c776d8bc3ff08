import Brainfuck.Tape
import Brainfuck.Wiring
import Brainfuck.Text.Record
import Brainfuck.Text.Decimal

/-!
# Brainfuck.Device

A tape with its wiring: the thing a program works on.  Each mutation of the
tape is announced to the listeners, once and only if it happened.  An operation
that can fail, or may have to wait, gives its answer together with the device
afterwards.
-/

namespace Brainfuck

open Text

/-- A tape with its connections. -/
structure Device where
  tape : Tape
  wiring : Wiring

/-- Why a device did not do what it was asked. -/
inductive Refusal where
  | indexOutOfRange (index capacity : Nat)
  | pointerOutOfBounds (pointer : Nat) (direction : Direction)
  | cancelled
deriving DecidableEq, Repr

namespace Refusal

/-- The wording of a refusal. -/
def message : Refusal → String
  | .indexOutOfRange index capacity =>
    "Cell index " ++ decimal index ++ " out of range (capacity " ++ decimal capacity ++ ")"
  | .pointerOutOfBounds pointer direction =>
    "Pointer out of bounds moving " ++ direction.word ++ " from " ++ decimal pointer
  | .cancelled => "Cancelled while waiting"

/-- The inspection form of a refusal. -/
def inspect : Refusal → String
  | .indexOutOfRange index capacity =>
    record "IndexOutOfRange" [("index", decimal index), ("capacity", decimal capacity)]
  | .pointerOutOfBounds pointer direction =>
    record "PointerOutOfBounds"
      [("pointer", decimal pointer), ("direction", direction.word.capitalize)]
  | .cancelled => "Cancelled"

end Refusal

/-- What an operation that may have to wait comes to. -/
inductive Attempt where
  | waiting
  | refused (reason : Refusal)
  | done
deriving DecidableEq, Repr

namespace Device

/-- A device with a blank tape and unused wiring. -/
def blank (capacity : Nat) (policy : PointerPolicy) : Device := ⟨.blank capacity policy, .fresh⟩

/-- A device with a blank tape, if so many cells can be addressed. -/
def blank? (capacity : Nat) (policy : PointerPolicy) : Option Device :=
  (Tape.blank? capacity policy).map fun t => ⟨t, .fresh⟩

/-- The snapshot of the tape that a change carries. -/
def snapshot (d : Device) (kind : ChangeKind) : Change :=
  ⟨kind, d.tape.pointer, d.tape.value, d.tape.mark⟩

/-- Tells the listeners what has just happened to the tape. -/
def announce (d : Device) (kind : ChangeKind) : Device :=
  { d with wiring := d.wiring.post (d.snapshot kind) }

/-- Moves the pointer by one cell. -/
def move (d : Device) (dir : Direction) : Option Refusal × Device :=
  match d.tape.move? dir with
  | none => (some (.pointerOutOfBounds d.tape.pointer dir), d)
  | some t => (none, { d with tape := t }.announce .pointerMoved)

/-- Adds one to the current cell. -/
def increment (d : Device) : Device :=
  { d with tape := d.tape.increment }.announce .cellIncremented

/-- Takes one from the current cell. -/
def decrement (d : Device) : Device :=
  { d with tape := d.tape.decrement }.announce .cellDecremented

/-- Queues the current cell as output. -/
def write (d : Device) : Device :=
  { d with wiring := d.wiring.emit d.tape.value }.announce .outputWritten

/-- Stores the next byte of input in the current cell, and zero once the input
has ended. -/
def read (d : Device) : Attempt × Device :=
  match d.wiring.intake with
  | .waiting => (.waiting, d)
  | .cancelled => (.refused .cancelled, d)
  | .ended => (.done, { d with tape := d.tape.store 0 }.announce .inputRead)
  | .byte b rest => (.done, ({ tape := d.tape.store b, wiring := rest } : Device).announce .inputRead)

/-- The value of any cell. -/
def valueAt (d : Device) (index : Nat) : Except Refusal UInt8 :=
  match d.tape.value? index with
  | none => .error (.indexOutOfRange index d.tape.capacity)
  | some v => .ok v

/-- The inspection form of a device: its tape without the cells. -/
def inspect (d : Device) : String :=
  openRecord "Tape"
    [("capacity", decimal d.tape.capacity), ("pointer", decimal d.tape.pointer),
     ("high_water_mark", decimal d.tape.mark), ("policy", d.tape.policy.word.capitalize)]

end Device

end Brainfuck
