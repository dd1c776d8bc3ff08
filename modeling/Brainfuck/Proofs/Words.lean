import Brainfuck.Proofs.Execution

/-!
# Brainfuck.Proofs.Words

The machine on plain memory, where an operation can break down.

A `Tape` cannot lose its pointer, and the numbers of a `Machine` have no end.
Plain memory promises neither.  There a number is a word of 64 bits, and a tape is
an array of cells and an index that may be anything.  An operation breaks down
(`none`) when an index is out of range, when a part of the program is asked for
that begins or ends beyond it, when a sum or a difference does not fit into a word,
and when it comes to a case that ought to be impossible.

Otherwise the operations are those of the library.  So to say that nothing breaks
down is to say that the two agree:

* `Device.sturdy_of_capacity` — by hand, a tape shorter than `Word.bound` never
  breaks down;
* `Machine.step?_plain` — nor does a machine whose numbers fit into words and
  whose position is in the program or right behind it (`Machine.Fits`).
-/

namespace Brainfuck

/-! ## words -/

namespace Word

/-- The numbers below this one (`2 ^ 64`) are words. -/
def bound : Nat := 18446744073709551616

/-- The sum of two words, if it is one. -/
def add? (a b : Nat) : Option Nat := if a + b < bound then some (a + b) else none

/-- The difference of two words, if it is one. -/
def sub? (a b : Nat) : Option Nat := if b ≤ a then some (a - b) else none

variable {a b : Nat}

theorem add?_eq_some (h : a + b < bound) : add? a b = some (a + b) := if_pos h

theorem sub?_eq_some (h : b ≤ a) : sub? a b = some (a - b) := if_pos h

end Word

/-! ## tapes -/

/-- A tape without any promise about its pointer and its mark. -/
structure PlainTape where
  cells : Array UInt8
  pointer : Nat
  mark : Nat
  policy : PointerPolicy

namespace PlainTape

/-- The value of the current cell. -/
def value? (t : PlainTape) : Option UInt8 := t.cells[t.pointer]?

/-- Replaces the value of the current cell. -/
def store? (t : PlainTape) (v : UInt8) : Option PlainTape :=
  if h : t.pointer < t.cells.size then some { t with cells := t.cells.set t.pointer v } else none

/-- Puts the pointer on a cell and raises the mark if it has never been so far. -/
def seek (t : PlainTape) (i : Nat) : PlainTape := { t with pointer := i, mark := max t.mark i }

/-- The index a move leads to, unless the tape refuses the move. -/
def target? (t : PlainTape) (dir : Direction) : Option (Option Nat) := do
  let last ← Word.sub? t.cells.size 1
  match dir with
  | .left =>
    if 0 < t.pointer then
      let i ← Word.sub? t.pointer 1
      return some i
    else
      match t.policy with
      | .strict => return none
      | .wrap => return some last
  | .right =>
    if t.pointer < last then
      let i ← Word.add? t.pointer 1
      return some i
    else
      match t.policy with
      | .strict => return none
      | .wrap => return some 0

end PlainTape

/-- The tape on plain memory. -/
def Tape.plain (t : Tape) : PlainTape := ⟨t.cells, t.pointer, t.mark, t.policy⟩

namespace Tape

@[simp] theorem value?_plain (t : Tape) : t.plain.value? = some t.value :=
  Array.getElem?_eq_getElem t.pointer_lt

@[simp] theorem store?_plain (t : Tape) (v : UInt8) : t.plain.store? v = some (t.store v).plain :=
  dif_pos t.pointer_lt

theorem target?_plain {t : Tape} (h : t.capacity < Word.bound) (dir : Direction) :
    t.plain.target? dir = some ((t.target? dir).map Fin.val) := by
  have hlast : Word.sub? t.cells.size 1 = some (t.cells.size - 1) :=
    Word.sub?_eq_some (Nat.one_le_of_lt t.mark_lt)
  cases dir with
  | left =>
    by_cases hp : 0 < t.pointer
    · simp [PlainTape.target?, plain, target?, hlast, hp, Word.sub?_eq_some (Nat.one_le_of_lt hp)]
    · cases hpolicy : t.policy <;>
        simp [PlainTape.target?, plain, target?, hlast, hp, hpolicy]
  | right =>
    have hiff : t.pointer < t.cells.size - 1 ↔ t.pointer + 1 < t.cells.size := Nat.lt_sub_iff_add_lt
    by_cases hp : t.pointer + 1 < t.cells.size
    · have hword : Word.add? t.pointer 1 = some (t.pointer + 1) :=
        Word.add?_eq_some (Nat.lt_trans hp h)
      simp [PlainTape.target?, plain, target?, hlast, hiff, hp, hword]
    · cases hpolicy : t.policy <;>
        simp [PlainTape.target?, plain, target?, hlast, hiff, hp, hpolicy]

end Tape

/-! ## devices -/

/-- A device on plain memory. -/
structure PlainDevice where
  tape : PlainTape
  wiring : Wiring

namespace PlainDevice

/-- Tells the listeners what has just happened to the tape. -/
def announce? (d : PlainDevice) (kind : ChangeKind) : Option PlainDevice := do
  let v ← d.tape.value?
  return { d with wiring := d.wiring.post ⟨kind, d.tape.pointer, v, d.tape.mark⟩ }

/-- Moves the pointer by one cell. -/
def move? (d : PlainDevice) (dir : Direction) : Option (Option Refusal × PlainDevice) := do
  match ← d.tape.target? dir with
  | none => return (some (.pointerOutOfBounds d.tape.pointer dir), d)
  | some i =>
    let d ← { d with tape := d.tape.seek i }.announce? .pointerMoved
    return (none, d)

/-- Replaces the value of the current cell, with a mutation of this kind. -/
def store? (d : PlainDevice) (v : UInt8) (kind : ChangeKind) : Option PlainDevice := do
  let t ← d.tape.store? v
  { d with tape := t }.announce? kind

/-- Adds one to the current cell. -/
def increment? (d : PlainDevice) : Option PlainDevice := do
  let v ← d.tape.value?
  d.store? (v + 1) .cellIncremented

/-- Takes one from the current cell. -/
def decrement? (d : PlainDevice) : Option PlainDevice := do
  let v ← d.tape.value?
  d.store? (v - 1) .cellDecremented

/-- Queues the current cell as output. -/
def write? (d : PlainDevice) : Option PlainDevice := do
  let v ← d.tape.value?
  { d with wiring := d.wiring.emit v }.announce? .outputWritten

/-- Stores the next byte of input in the current cell, and zero once the input
has ended. -/
def read? (d : PlainDevice) : Option (Attempt × PlainDevice) :=
  match d.wiring.intake with
  | .waiting => some (.waiting, d)
  | .cancelled => some (.refused .cancelled, d)
  | .ended => (d.store? 0 .inputRead).map (.done, ·)
  | .byte b rest => ({ d with wiring := rest }.store? b .inputRead).map (.done, ·)

/-- Adds a listener and tells its id.  The id of the next one is a word, too. -/
def subscribe? (d : PlainDevice) : Option (Nat × PlainDevice) := do
  let _ ← Word.add? d.wiring.audience.nextId 1
  let (id, a) := d.wiring.audience.subscribe
  return (id, { d with wiring := { d.wiring with audience := a } })

end PlainDevice

/-- The device on plain memory. -/
def Device.plain (d : Device) : PlainDevice := ⟨d.tape.plain, d.wiring⟩

namespace Device

@[simp] theorem value?_plain (d : Device) : d.plain.tape.value? = some d.tape.value :=
  d.tape.value?_plain

@[simp] theorem announce?_plain (d : Device) (kind : ChangeKind) :
    d.plain.announce? kind = some (d.announce kind).plain := by
  simp only [PlainDevice.announce?, value?_plain, Option.bind_eq_bind, Option.bind_some]
  rfl

@[simp] theorem store?_plain (d : Device) (v : UInt8) (kind : ChangeKind) :
    d.plain.store? v kind = some (announce ⟨d.tape.store v, d.wiring⟩ kind).plain := by
  have hstore : d.plain.tape.store? v = some (d.tape.store v).plain := d.tape.store?_plain v
  simp only [PlainDevice.store?, hstore, Option.bind_eq_bind, Option.bind_some]
  exact announce?_plain ⟨d.tape.store v, d.wiring⟩ kind

theorem move?_plain {d : Device} (h : d.tape.capacity < Word.bound) (dir : Direction) :
    d.plain.move? dir = some ((d.move dir).1, (d.move dir).2.plain) := by
  have htarget : d.plain.tape.target? dir = _ := Tape.target?_plain h dir
  simp only [PlainDevice.move?, htarget, move, Tape.move?]
  cases d.tape.target? dir with
  | none => rfl
  | some i =>
    have hannounce : ({ d.plain with tape := d.plain.tape.seek i } : PlainDevice).announce?
        .pointerMoved = _ := announce?_plain ⟨d.tape.seek i, d.wiring⟩ .pointerMoved
    simp [hannounce]

@[simp] theorem increment?_plain (d : Device) : d.plain.increment? = some d.increment.plain := by
  simp only [PlainDevice.increment?, value?_plain, Option.bind_eq_bind, Option.bind_some, store?_plain]
  rfl

@[simp] theorem decrement?_plain (d : Device) : d.plain.decrement? = some d.decrement.plain := by
  simp only [PlainDevice.decrement?, value?_plain, Option.bind_eq_bind, Option.bind_some, store?_plain]
  rfl

@[simp] theorem write?_plain (d : Device) : d.plain.write? = some d.write.plain := by
  simp only [PlainDevice.write?, value?_plain, Option.bind_eq_bind, Option.bind_some]
  exact announce?_plain ⟨d.tape, d.wiring.emit d.tape.value⟩ .outputWritten

@[simp] theorem read?_plain (d : Device) : d.plain.read? = some (d.read.1, d.read.2.plain) := by
  have hwiring : d.plain.wiring = d.wiring := rfl
  rw [PlainDevice.read?, read, hwiring]
  cases d.wiring.intake with
  | waiting | cancelled => rfl
  | ended => exact congrArg (Option.map (Attempt.done, ·)) (d.store?_plain 0 .inputRead)
  | byte b rest =>
    exact congrArg (Option.map (Attempt.done, ·)) (store?_plain ⟨d.tape, rest⟩ b .inputRead)

/-- `d.Sturdy`: no change by hand breaks down on plain memory. -/
structure Sturdy (d : Device) : Prop where
  move : ∀ dir, d.plain.move? dir = some ((d.move dir).1, (d.move dir).2.plain)
  increment : d.plain.increment? = some d.increment.plain
  decrement : d.plain.decrement? = some d.decrement.plain
  write : d.plain.write? = some d.write.plain
  read : d.plain.read? = some (d.read.1, d.read.2.plain)

theorem sturdy_of_capacity {d : Device} (h : d.tape.capacity < Word.bound) : d.Sturdy :=
  ⟨move?_plain h, d.increment?_plain, d.decrement?_plain, d.write?_plain, d.read?_plain⟩

/-- A read is refused for one reason only. -/
theorem eq_cancelled_of_read {d : Device} {reason : Refusal} (h : d.read.1 = .refused reason) :
    reason = .cancelled := by
  rw [read] at h
  cases hi : d.wiring.intake <;> simp only [hi] at h <;> cases h
  rfl

/-- The device with one more listener. -/
def subscribed (d : Device) : Device :=
  { d with wiring := { d.wiring with audience := d.wiring.audience.subscribe.2 } }

/-- A subscription breaks down when the ids run out, and only then. -/
theorem subscribe?_plain (d : Device) :
    d.plain.subscribe? =
      if d.wiring.audience.nextId + 1 < Word.bound then
        some (d.wiring.audience.nextId, d.subscribed.plain)
      else none := by
  have haudience : d.plain.wiring.audience = d.wiring.audience := rfl
  rw [PlainDevice.subscribe?, haudience, Word.add?]
  split <;> rfl

end Device

/-! ## machines -/

/-- The fault that the refusal of an instruction amounts to.  No instruction asks
for a cell by its index, so none is refused for want of one. -/
def Fault.ofRefusal? (ip : Nat) (c : Char) : Refusal → Option Fault
  | .indexOutOfRange _ _ => none
  | .pointerOutOfBounds pointer _ => some (.pointerOutOfBounds ip pointer c)
  | .cancelled => some (.cancelled ip)

/-- A machine on plain memory. -/
structure PlainMachine where
  program : Program
  ip : Nat
  device : PlainDevice
  delay : Nat
  limit : Option Nat
  mode : BracketMode
  steps : Nat

namespace PlainMachine

/-- The machine with the device as an instruction has left it. -/
def holding (m : PlainMachine) (d : PlainDevice) : PlainMachine := { m with device := d }

/-- An instruction was executed and ends at position `ip`: execution goes on
behind it. -/
def proceed? (m : PlainMachine) (ip : Nat) (s : Step) : Option (StepResult × PlainMachine) := do
  let ip ← Word.add? ip 1
  let steps ← Word.add? m.steps 1
  return (.stepped s, { m with ip := ip, steps := steps })

/-- The tape has refused the instruction `c`. -/
def refuse? (m : PlainMachine) (c : Char) (reason : Refusal) :
    Option (StepResult × PlainMachine) := do
  let fault ← Fault.ofRefusal? m.ip c reason
  return (.failed fault, m)

/-- A bracket found no partner. -/
def unmatched? (m : PlainMachine) (s : Step) (bracket : Bracket) :
    Option (StepResult × PlainMachine) :=
  match m.mode with
  | .strict => some (.failed (.unmatchedBracket m.ip bracket), m)
  | .permissive => m.proceed? m.ip { s with action := .fellThrough }

/-- The first closing bracket in the part of the program that begins here. -/
def firstClose? (m : PlainMachine) : Option (Option Nat) :=
  if m.ip ≤ m.program.size then
    match m.program.firstClose? m.ip with
    | none => some none
    | some j => (Word.add? m.ip (j - m.ip)).map some
  else none

/-- The last opening bracket in the part of the program that ends here. -/
def lastOpen? (m : PlainMachine) : Option (Option Nat) :=
  if m.ip ≤ m.program.size then some (m.program.lastOpen? m.ip) else none

/-- Executes the instruction `c`. -/
def execute? (m : PlainMachine) (c : Char) : Option (StepResult × PlainMachine) := do
  let v ← m.device.tape.value?
  let s : Step := ⟨m.ip, c, m.device.tape.pointer, v, .ignored⟩
  match Instruction.ofChar c with
  | .move dir =>
    match ← m.device.move? dir with
    | (some reason, d) => (m.holding d).refuse? c reason
    | (none, d) => (m.holding d).proceed? m.ip { s with action := .moved d.tape.pointer }
  | .increment =>
    let d ← m.device.increment?
    let v' ← d.tape.value?
    (m.holding d).proceed? m.ip { s with action := .incremented v v' }
  | .decrement =>
    let d ← m.device.decrement?
    let v' ← d.tape.value?
    (m.holding d).proceed? m.ip { s with action := .decremented v v' }
  | .write =>
    let d ← m.device.write?
    let v' ← d.tape.value?
    (m.holding d).proceed? m.ip { s with action := .wrote v' }
  | .read =>
    match ← m.device.read? with
    | (.waiting, d) => return (.waiting, m.holding d)
    | (.refused reason, d) => (m.holding d).refuse? c reason
    | (.done, d) =>
      let v' ← d.tape.value?
      (m.holding d).proceed? m.ip { s with action := .read v' }
  | .loopStart =>
    if v = 0 then
      match ← m.firstClose? with
      | some j => m.proceed? j { s with action := .jumpedForward j }
      | none => m.unmatched? s .opening
    else m.proceed? m.ip { s with action := .enteredLoop }
  | .loopEnd =>
    if v = 0 then m.proceed? m.ip { s with action := .exitedLoop }
    else
      match ← m.lastOpen? with
      | some j => m.proceed? j { s with action := .jumpedBack j }
      | none => m.unmatched? s .closing
  | .comment => m.proceed? m.ip s

/-- Executes the next instruction. -/
def step? (m : PlainMachine) : Option (StepResult × PlainMachine) :=
  match m.program.at? m.ip with
  | none => some (.finished, m)
  | some c => m.execute? c

end PlainMachine

namespace Machine

/-- The machine on plain memory. -/
def plain (m : Machine) : PlainMachine :=
  ⟨m.program, m.ip, m.device.plain, m.delay, m.limit, m.mode, m.steps⟩

/-- The numbers of the machine are words, also after one more step, and its
position is in the program or right behind it. -/
structure Fits (m : Machine) : Prop where
  ip : m.ip ≤ m.program.size
  program : m.program.size < Word.bound
  capacity : m.device.tape.capacity < Word.bound
  steps : m.steps + 1 < Word.bound

variable {m : Machine}

/-- Behind an instruction there is room for one more position. -/
theorem Fits.succ_lt (h : m.Fits) {i : Nat} {c : Char} (hat : m.program.at? i = some c) :
    i + 1 < Word.bound :=
  Nat.lt_of_le_of_lt (Program.lt_size_of_at? hat) h.program

theorem proceed?_plain (m : Machine) {ip : Nat} (hip : ip + 1 < Word.bound)
    (hsteps : m.steps + 1 < Word.bound) (s : Step) :
    m.plain.proceed? ip s = some ((m.proceed ip s).1, (m.proceed ip s).2.plain) := by
  have hsteps' : Word.add? m.plain.steps 1 = some (m.steps + 1) := Word.add?_eq_some hsteps
  simp only [PlainMachine.proceed?, Word.add?_eq_some hip, hsteps', Option.bind_eq_bind,
    Option.bind_some]
  rfl

theorem unmatched?_plain (m : Machine) {s : Step} (hs : s.ip = m.ip) (hip : m.ip + 1 < Word.bound)
    (hsteps : m.steps + 1 < Word.bound) (bracket : Bracket) :
    m.plain.unmatched? s bracket =
      some ((m.unmatched s bracket).1, (m.unmatched s bracket).2.plain) := by
  have hmode : m.plain.mode = m.mode := rfl
  rw [PlainMachine.unmatched?, unmatched, hmode, hs]
  cases m.mode with
  | strict => rfl
  | permissive => exact m.proceed?_plain hip hsteps _

theorem firstClose?_plain (h : m.Fits) : m.plain.firstClose? = some (m.program.firstClose? m.ip) := by
  have hip : m.plain.ip ≤ m.plain.program.size := h.ip
  rw [PlainMachine.firstClose?, if_pos hip]
  cases hj : m.program.firstClose? m.ip with
  | none => simp only [plain, hj]
  | some j =>
    obtain ⟨hle, hat, -⟩ := (Program.firstClose?_eq_some_iff _ _ _).mp hj
    have hlt : m.ip + (j - m.ip) < Word.bound := by
      rw [Nat.add_sub_cancel' hle]
      exact Nat.lt_of_succ_lt (h.succ_lt hat)
    have hword : Word.add? m.ip (j - m.ip) = some j := by
      rw [Word.add?_eq_some hlt, Nat.add_sub_cancel' hle]
    simp only [plain, hj, hword, Option.map_some]

theorem lastOpen?_plain (h : m.Fits) : m.plain.lastOpen? = some (m.program.lastOpen? m.ip) :=
  if_pos h.ip

/-- A machine that fits executes on plain memory what it executes. -/
theorem execute?_plain (h : m.Fits) {c : Char} (hc : m.current? = some c) :
    m.plain.execute? c = some ((m.execute c).1, (m.execute c).2.plain) := by
  have hdevice : m.plain.device = m.device.plain := rfl
  have hip : m.ip + 1 < Word.bound := h.succ_lt hc
  -- Whatever the instruction has done to the device, there is room for one more step.
  have hproceed : ∀ d s, ({ m with device := d } : Machine).plain.proceed? m.ip s =
      some ((({ m with device := d } : Machine).proceed m.ip s).1,
        (({ m with device := d } : Machine).proceed m.ip s).2.plain) := fun d s =>
    proceed?_plain { m with device := d } hip h.steps s
  simp only [PlainMachine.execute?, execute, hdevice, Device.value?_plain, Option.bind_eq_bind,
    Option.bind_some]
  cases hi : Instruction.ofChar c with
  | move dir =>
    simp only [Device.move?_plain h.capacity, Option.bind_some, onDevice]
    cases hmove : m.device.tape.move? dir with
    | none => simp only [Device.move, hmove]; rfl
    | some t => simp only [Device.move, hmove]; exact hproceed _ _
  | increment =>
    have hvalue : m.device.increment.tape.value = m.device.tape.value + 1 := Tape.value_store _ _
    simp only [Device.increment?_plain, Option.bind_some, Device.value?_plain, hvalue]
    exact hproceed _ _
  | decrement =>
    have hvalue : m.device.decrement.tape.value = m.device.tape.value - 1 := Tape.value_store _ _
    simp only [Device.decrement?_plain, Option.bind_some, Device.value?_plain, hvalue]
    exact hproceed _ _
  | write =>
    simp only [Device.write?_plain, Option.bind_some, Device.value?_plain]
    exact hproceed _ _
  | read =>
    simp only [Device.read?_plain, Option.bind_some, onDevice]
    cases hread : m.device.read.1 with
    | waiting => rfl
    | refused reason =>
      obtain rfl := Device.eq_cancelled_of_read hread
      rfl
    | done =>
      simp only [Device.value?_plain, Option.bind_some]
      exact hproceed _ _
  | loopStart =>
    have hjump := firstClose?_plain h
    by_cases hv : m.device.tape.value = 0
    · simp only [sight, hv, if_true, hjump, Option.bind_some]
      cases hj : m.program.firstClose? m.ip with
      | none => exact m.unmatched?_plain rfl hip h.steps _
      | some j =>
        obtain ⟨-, hat, -⟩ := (Program.firstClose?_eq_some_iff _ _ _).mp hj
        exact m.proceed?_plain (h.succ_lt hat) h.steps _
    · simp only [sight, hv, if_false]
      exact hproceed _ _
  | loopEnd =>
    have hjump := lastOpen?_plain h
    by_cases hv : m.device.tape.value = 0
    · simp only [sight, hv, if_true]
      exact hproceed _ _
    · simp only [sight, hv, if_false, hjump, Option.bind_some]
      cases hj : m.program.lastOpen? m.ip with
      | none => exact m.unmatched?_plain rfl hip h.steps _
      | some j =>
        obtain ⟨-, hat, -⟩ := (Program.lastOpen?_eq_some_iff _ _ _).mp hj
        exact m.proceed?_plain (h.succ_lt hat) h.steps _
  | comment => exact hproceed _ _

/-- A machine that fits does not break down: on plain memory it takes the same step. -/
theorem step?_plain (h : m.Fits) : m.plain.step? = some (m.step.1, m.step.2.plain) := by
  have hcurrent : m.plain.program.at? m.plain.ip = m.current? := rfl
  rw [PlainMachine.step?, step, hcurrent]
  cases hc : m.current? with
  | none => rfl
  | some c => exact execute?_plain h hc

end Machine

end Brainfuck
