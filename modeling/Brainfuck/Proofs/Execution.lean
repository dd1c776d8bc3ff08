import Brainfuck.Machine

/-!
# Brainfuck.Proofs.Execution

What one step of a machine can do, said once, and what follows for many steps.

A step is a function of the whole machine.  Here it is taken apart into three
relations on the instruction it meets: the instruction is performed
(`Performs`), it fails (`Fails`), or it waits (`Waits`).  Every instruction does
exactly one of the three:

* `step_eq_stepped_iff`, `step_eq_failed_iff`, `step_eq_waiting_iff`,
  `step_eq_finished_iff` — each result of a step, and the machine afterwards.

Later proofs take a step apart with these and never open `Machine.execute`.
`Executes` strings steps together and keeps their records; since a step is a
function, of two executions from one machine one continues the other
(`Executes.continues`).
-/

namespace Brainfuck

/-- The character of an instruction.  Comments have many. -/
def Instruction.symbol? : Instruction → Option Char
  | .move .left => some '<'
  | .move .right => some '>'
  | .increment => some '+'
  | .decrement => some '-'
  | .write => some '.'
  | .read => some ','
  | .loopStart => some '['
  | .loopEnd => some ']'
  | .comment => none

theorem Instruction.eq_of_symbol? {c x : Char} {i : Instruction} (hc : ofChar c = i)
    (hx : i.symbol? = some x) : c = x := by
  subst hc
  unfold ofChar at hx
  split at hx <;> cases hx <;> rfl

namespace Machine

/-! ## one instruction -/

/-- `m.Performs i action target device`: at this point the machine can execute
the instruction `i`.  It does `action`, leaves its device as `device`, and ends
at position `target`, behind which it goes on. -/
inductive Performs (m : Machine) : Instruction → Action → Nat → Device → Prop where
  | move {dir : Direction} {t : Tape} (h : m.device.tape.move? dir = some t) :
    Performs m (.move dir) (.moved t.pointer) m.ip
      (({ m.device with tape := t } : Device).announce .pointerMoved)
  | increment :
    Performs m .increment (.incremented m.device.tape.value (m.device.tape.value + 1)) m.ip
      m.device.increment
  | decrement :
    Performs m .decrement (.decremented m.device.tape.value (m.device.tape.value - 1)) m.ip
      m.device.decrement
  | write : Performs m .write (.wrote m.device.tape.value) m.ip m.device.write
  | readByte {b : UInt8} {rest : Wiring} (h : m.device.wiring.intake = .byte b rest) :
    Performs m .read (.read b) m.ip
      (({ tape := m.device.tape.store b, wiring := rest } : Device).announce .inputRead)
  | readEnd (h : m.device.wiring.intake = .ended) :
    Performs m .read (.read 0) m.ip
      (({ m.device with tape := m.device.tape.store 0 } : Device).announce .inputRead)
  | enterLoop (h : m.device.tape.value ≠ 0) :
    Performs m .loopStart .enteredLoop m.ip m.device
  | jumpForward {j : Nat} (h : m.device.tape.value = 0) (hj : m.program.firstClose? m.ip = some j) :
    Performs m .loopStart (.jumpedForward j) j m.device
  | passStart (h : m.device.tape.value = 0) (hj : m.program.firstClose? m.ip = none)
      (hm : m.mode = .permissive) :
    Performs m .loopStart .fellThrough m.ip m.device
  | exitLoop (h : m.device.tape.value = 0) :
    Performs m .loopEnd .exitedLoop m.ip m.device
  | jumpBack {j : Nat} (h : m.device.tape.value ≠ 0) (hj : m.program.lastOpen? m.ip = some j) :
    Performs m .loopEnd (.jumpedBack j) j m.device
  | passEnd (h : m.device.tape.value ≠ 0) (hj : m.program.lastOpen? m.ip = none)
      (hm : m.mode = .permissive) :
    Performs m .loopEnd .fellThrough m.ip m.device
  | comment : Performs m .comment .ignored m.ip m.device

/-- `m.Fails c fault`: the character `c` cannot be executed at this point. -/
inductive Fails (m : Machine) (c : Char) : Fault → Prop where
  | move {dir : Direction} (hc : Instruction.ofChar c = .move dir)
      (h : m.device.tape.move? dir = none) :
    Fails m c (.pointerOutOfBounds m.ip m.device.tape.pointer c)
  | read (hc : Instruction.ofChar c = .read) (h : m.device.wiring.intake = .cancelled) :
    Fails m c (.cancelled m.ip)
  | loopStart (hc : Instruction.ofChar c = .loopStart) (h : m.device.tape.value = 0)
      (hj : m.program.firstClose? m.ip = none) (hm : m.mode = .strict) :
    Fails m c (.unmatchedBracket m.ip .opening)
  | loopEnd (hc : Instruction.ofChar c = .loopEnd) (h : m.device.tape.value ≠ 0)
      (hj : m.program.lastOpen? m.ip = none) (hm : m.mode = .strict) :
    Fails m c (.unmatchedBracket m.ip .closing)

/-- The character `c` waits for input that may still come. -/
def Waits (m : Machine) (c : Char) : Prop :=
  Instruction.ofChar c = .read ∧ m.device.wiring.intake = .waiting

/-- The machine after a performed instruction. -/
def proceeded (m : Machine) (target : Nat) (device : Device) : Machine :=
  { m with ip := target + 1, device := device, steps := m.steps + 1 }

theorem execute_of_performs {m : Machine} {c : Char} {a : Action} {j : Nat} {d : Device}
    (h : m.Performs (Instruction.ofChar c) a j d) :
    m.execute c = (.stepped { m.sight c with action := a }, m.proceeded j d) := by
  unfold execute
  generalize Instruction.ofChar c = i at h
  cases h with
  | move h => simp [onDevice, Device.move, h, proceed, proceeded, sight, Device.announce]
  | increment | decrement | write | comment => rfl
  | readByte h =>
    simp [onDevice, Device.read, h, proceed, proceeded, sight, Device.announce]
  | readEnd h =>
    simp [onDevice, Device.read, h, proceed, proceeded, sight, Device.announce]
  | enterLoop h => simp [sight, h, proceed, proceeded]
  | jumpForward h hj => simp [sight, h, hj, proceed, proceeded]
  | passStart h hj hm => simp [sight, h, hj, unmatched, hm, proceed, proceeded]
  | exitLoop h => simp [sight, h, proceed, proceeded]
  | jumpBack h hj => simp [sight, h, hj, proceed, proceeded]
  | passEnd h hj hm => simp [sight, h, hj, unmatched, hm, proceed, proceeded]

theorem execute_of_fails {m : Machine} {c : Char} {fault : Fault} (h : m.Fails c fault) :
    m.execute c = (.failed fault, m) := by
  unfold execute
  cases h with
  | move hc h => simp [hc, onDevice, Device.move, h, sight]
  | read hc h => simp [hc, onDevice, Device.read, h, sight]
  | loopStart hc h hj hm => simp [hc, sight, h, hj, unmatched, hm]
  | loopEnd hc h hj hm => simp [hc, sight, h, hj, unmatched, hm]

theorem execute_of_waits {m : Machine} {c : Char} (h : m.Waits c) :
    m.execute c = (.waiting, m) := by
  unfold execute
  simp [h.1, onDevice, Device.read, h.2]

/-- Every instruction is performed, fails, or waits. -/
theorem performs_or_fails_or_waits (m : Machine) (c : Char) :
    (∃ a j d, m.Performs (Instruction.ofChar c) a j d) ∨ (∃ fault, m.Fails c fault) ∨ m.Waits c := by
  cases hc : Instruction.ofChar c with
  | move dir =>
    cases h : m.device.tape.move? dir with
    | some t => exact .inl ⟨_, _, _, .move h⟩
    | none => exact .inr (.inl ⟨_, .move hc h⟩)
  | increment => exact .inl ⟨_, _, _, .increment⟩
  | decrement => exact .inl ⟨_, _, _, .decrement⟩
  | write => exact .inl ⟨_, _, _, .write⟩
  | read =>
    cases h : m.device.wiring.intake with
    | waiting => exact .inr (.inr ⟨hc, h⟩)
    | cancelled => exact .inr (.inl ⟨_, .read hc h⟩)
    | ended => exact .inl ⟨_, _, _, .readEnd h⟩
    | byte b rest => exact .inl ⟨_, _, _, .readByte h⟩
  | loopStart =>
    by_cases h : m.device.tape.value = 0
    · cases hj : m.program.firstClose? m.ip with
      | some j => exact .inl ⟨_, _, _, .jumpForward h hj⟩
      | none =>
        cases hm : m.mode with
        | permissive => exact .inl ⟨_, _, _, .passStart h hj hm⟩
        | strict => exact .inr (.inl ⟨_, .loopStart hc h hj hm⟩)
    · exact .inl ⟨_, _, _, .enterLoop h⟩
  | loopEnd =>
    by_cases h : m.device.tape.value = 0
    · exact .inl ⟨_, _, _, .exitLoop h⟩
    · cases hj : m.program.lastOpen? m.ip with
      | some j => exact .inl ⟨_, _, _, .jumpBack h hj⟩
      | none =>
        cases hm : m.mode with
        | permissive => exact .inl ⟨_, _, _, .passEnd h hj hm⟩
        | strict => exact .inr (.inl ⟨_, .loopEnd hc h hj hm⟩)
  | comment => exact .inl ⟨_, _, _, .comment⟩

/-! ## one step -/

theorem step_of_current {m : Machine} {c : Char} (h : m.current? = some c) :
    m.step = m.execute c := by
  simp only [step, h]

theorem current?_eq_none_iff {m : Machine} : m.current? = none ↔ m.isFinished = true := by
  rw [isFinished, decide_eq_true_iff, current?, Program.at?, Program.size, Array.getElem?_eq_none_iff]

/-- The four results of a step, each with the machine afterwards. -/
theorem step_cases (m : Machine) :
    (m.isFinished = true ∧ m.step = (.finished, m)) ∨
    (∃ c a j d, m.current? = some c ∧ m.Performs (Instruction.ofChar c) a j d ∧
      m.step = (.stepped { m.sight c with action := a }, m.proceeded j d)) ∨
    (∃ c fault, m.current? = some c ∧ m.Fails c fault ∧ m.step = (.failed fault, m)) ∨
    (∃ c, m.current? = some c ∧ m.Waits c ∧ m.step = (.waiting, m)) := by
  cases hc : m.current? with
  | none => exact .inl ⟨current?_eq_none_iff.mp hc, by simp only [step, hc]⟩
  | some c =>
    rw [step_of_current hc]
    obtain ⟨a, j, d, h⟩ | ⟨fault, h⟩ | h := m.performs_or_fails_or_waits c
    · exact .inr (.inl ⟨c, a, j, d, rfl, h, execute_of_performs h⟩)
    · exact .inr (.inr (.inl ⟨c, fault, rfl, h, execute_of_fails h⟩))
    · exact .inr (.inr (.inr ⟨c, rfl, h, execute_of_waits h⟩))

/-- A step is executed exactly when there is an instruction and it can be performed. -/
theorem step_eq_stepped_iff {m m' : Machine} {s : Step} :
    m.step = (.stepped s, m') ↔
      ∃ c a j d, m.current? = some c ∧ m.Performs (Instruction.ofChar c) a j d ∧
        s = { m.sight c with action := a } ∧ m' = m.proceeded j d := by
  constructor
  · intro h
    obtain ⟨_, h'⟩ | ⟨c, a, j, d, hc, hp, h'⟩ | ⟨_, _, _, _, h'⟩ | ⟨_, _, _, h'⟩ := m.step_cases
    · simp [h'] at h
    · rw [h'] at h
      obtain ⟨hs, rfl⟩ := Prod.mk.inj h
      exact ⟨c, a, j, d, hc, hp, (StepResult.stepped.inj hs).symm, rfl⟩
    · simp [h'] at h
    · simp [h'] at h
  · intro h
    obtain ⟨c, a, j, d, hc, hp, rfl, rfl⟩ := h
    rw [step_of_current hc, execute_of_performs hp]

/-- A step fails exactly when there is an instruction that fails, and changes nothing. -/
theorem step_eq_failed_iff {m m' : Machine} {fault : Fault} :
    m.step = (.failed fault, m') ↔ m' = m ∧ ∃ c, m.current? = some c ∧ m.Fails c fault := by
  constructor
  · intro h
    obtain ⟨_, h'⟩ | ⟨_, _, _, _, _, _, h'⟩ | ⟨c, f, hc, hf, h'⟩ | ⟨_, _, _, h'⟩ := m.step_cases
    · simp [h'] at h
    · simp [h'] at h
    · rw [h'] at h
      obtain ⟨hs, rfl⟩ := Prod.mk.inj h
      exact ⟨rfl, c, hc, StepResult.failed.inj hs ▸ hf⟩
    · simp [h'] at h
  · intro h
    obtain ⟨rfl, c, hc, hf⟩ := h
    rw [step_of_current hc, execute_of_fails hf]

/-- A step waits exactly when there is an instruction that waits, and changes nothing. -/
theorem step_eq_waiting_iff {m m' : Machine} :
    m.step = (.waiting, m') ↔ m' = m ∧ ∃ c, m.current? = some c ∧ m.Waits c := by
  constructor
  · intro h
    obtain ⟨_, h'⟩ | ⟨_, _, _, _, _, _, h'⟩ | ⟨_, _, _, _, h'⟩ | ⟨c, hc, hw, h'⟩ := m.step_cases
    · simp [h'] at h
    · simp [h'] at h
    · simp [h'] at h
    · rw [h'] at h
      exact ⟨(Prod.mk.inj h).2.symm, c, hc, hw⟩
  · intro h
    obtain ⟨rfl, c, hc, hw⟩ := h
    rw [step_of_current hc, execute_of_waits hw]

/-- There is nothing to step exactly when the program has ended. -/
theorem step_eq_finished_iff {m m' : Machine} :
    m.step = (.finished, m') ↔ m' = m ∧ m.isFinished = true := by
  constructor
  · intro h
    obtain ⟨hf, h'⟩ | ⟨_, _, _, _, _, _, h'⟩ | ⟨_, _, _, _, h'⟩ | ⟨_, _, _, h'⟩ := m.step_cases
    · rw [h'] at h
      exact ⟨(Prod.mk.inj h).2.symm, hf⟩
    · simp [h'] at h
    · simp [h'] at h
    · simp [h'] at h
  · intro h
    obtain ⟨rfl, hf⟩ := h
    simp only [step, current?_eq_none_iff.mpr hf]

theorem isFinished_of_step {m m' : Machine} {s : Step} (h : m.step = (.stepped s, m')) :
    m.isFinished = false := by
  obtain ⟨c, a, j, d, hc, -⟩ := step_eq_stepped_iff.mp h
  cases hf : m.isFinished with
  | false => rfl
  | true => rw [current?_eq_none_iff.mpr hf] at hc; cases hc

/-! ## what no step touches -/

/-- No instruction touches the cancel flag or closes the input. -/
theorem Performs.cancelled_closed {m : Machine} {i : Instruction} {a : Action} {j : Nat}
    {d : Device} (h : m.Performs i a j d) :
    d.wiring.cancelled = m.device.wiring.cancelled ∧
      d.wiring.input.closed = m.device.wiring.input.closed := by
  cases h with
  | readByte h =>
    obtain ⟨-, q, hq, rfl⟩ := (Wiring.intake_eq_byte_iff _ _ _).mp h
    exact ⟨rfl, (Pipe.items_closed_of_take? hq).2⟩
  | _ => exact ⟨rfl, rfl⟩

/-- What a step leaves as it is. -/
theorem frame_of_step {m m' : Machine} {s : Step} (h : m.step = (.stepped s, m')) :
    m'.program = m.program ∧ m'.mode = m.mode ∧ m'.limit = m.limit ∧ m'.delay = m.delay ∧
      m'.device.wiring.cancelled = m.device.wiring.cancelled ∧
      m'.device.wiring.input.closed = m.device.wiring.input.closed := by
  obtain ⟨c, a, j, d, -, hp, -, rfl⟩ := step_eq_stepped_iff.mp h
  exact ⟨rfl, rfl, rfl, rfl, hp.cancelled_closed⟩

/-- An instruction ends at a position of the program. -/
theorem Performs.target_lt {m : Machine} {c : Char} {i : Instruction} {a : Action} {j : Nat}
    {d : Device} (h : m.Performs i a j d) (hc : m.current? = some c) : j < m.program.size := by
  cases h with
  | jumpForward _ hj =>
    exact Program.lt_size_of_at? ((Program.firstClose?_eq_some_iff _ _ _).mp hj).2.1
  | jumpBack _ hj => exact Program.lt_size_of_at? ((Program.lastOpen?_eq_some_iff _ _ _).mp hj).2.1
  | _ => exact Program.lt_size_of_at? hc

/-! ## what a step does to the pipes -/

end Machine

/-- The byte that an action has stored from the input. -/
def Action.byteRead? : Action → Option UInt8
  | .read b => some b
  | _ => none

/-- The byte that an action has written. -/
def Action.byteWritten? : Action → Option UInt8
  | .wrote b => some b
  | _ => none

/-- The byte that a step has stored from the input. -/
def Step.byteRead? (s : Step) : Option UInt8 := s.action.byteRead?

/-- The byte that a step has written. -/
def Step.byteWritten? (s : Step) : Option UInt8 := s.action.byteWritten?

namespace Machine

/-- An instruction that reads takes the byte that has waited longest.  When none
waits it stores zero, but only if the end of the input has been announced. -/
theorem Performs.input {m : Machine} {i : Instruction} {a : Action} {j : Nat} {d : Device}
    (h : m.Performs i a j d) :
    (a.byteRead? = none ∧ d.wiring.input.pending = m.device.wiring.input.pending) ∨
    (∃ b, a.byteRead? = some b ∧
      m.device.wiring.input.pending = b :: d.wiring.input.pending) ∨
    (a.byteRead? = some 0 ∧ m.device.wiring.input.pending = [] ∧
      d.wiring.input.pending = [] ∧ m.device.wiring.input.closed = true) := by
  cases h with
  | readByte h =>
    obtain ⟨-, q, hq, rfl⟩ := (Wiring.intake_eq_byte_iff _ _ _).mp h
    exact .inr (.inl ⟨_, rfl, Pipe.pending_of_take? hq⟩)
  | readEnd h =>
    obtain ⟨-, hempty, hclosed⟩ := (Wiring.intake_eq_ended_iff _).mp h
    exact .inr (.inr ⟨rfl, hempty, hempty, hclosed⟩)
  | _ => exact .inl ⟨rfl, rfl⟩

/-- What an instruction has read stands in the current cell. -/
theorem Performs.value {m : Machine} {i : Instruction} {a : Action} {j : Nat} {d : Device}
    (h : m.Performs i a j d) {b : UInt8} (ha : a.byteRead? = some b) : d.tape.value = b := by
  cases h with
  | readByte =>
    obtain rfl := Option.some.inj ha
    exact Tape.value_store _ _
  | readEnd =>
    obtain rfl := Option.some.inj ha
    exact Tape.value_store _ _
  | _ => cases ha

/-- An instruction that writes puts one byte behind the others. -/
theorem Performs.output {m : Machine} {i : Instruction} {a : Action} {j : Nat} {d : Device}
    (h : m.Performs i a j d) :
    (a.byteWritten? = none ∧ d.wiring.output = m.device.wiring.output) ∨
    ∃ b, a.byteWritten? = some b ∧ d.wiring.output = m.device.wiring.output.put b := by
  cases h with
  | write => exact .inr ⟨_, rfl, rfl⟩
  | readByte h =>
    obtain ⟨-, q, -, rfl⟩ := (Wiring.intake_eq_byte_iff _ _ _).mp h
    exact .inl ⟨rfl, rfl⟩
  | _ => exact .inl ⟨rfl, rfl⟩

/-- What a step does to the input, as `Performs.input` says it of an instruction. -/
theorem input_of_step {m m' : Machine} {s : Step} (h : m.step = (.stepped s, m')) :
    (s.byteRead? = none ∧
      m'.device.wiring.input.pending = m.device.wiring.input.pending) ∨
    (∃ b, s.byteRead? = some b ∧
      m.device.wiring.input.pending = b :: m'.device.wiring.input.pending) ∨
    (s.byteRead? = some 0 ∧ m.device.wiring.input.pending = [] ∧
      m'.device.wiring.input.pending = [] ∧ m.device.wiring.input.closed = true) := by
  obtain ⟨c, a, j, d, -, hp, rfl, rfl⟩ := step_eq_stepped_iff.mp h
  exact hp.input

theorem value_of_step {m m' : Machine} {s : Step} (h : m.step = (.stepped s, m')) {b : UInt8}
    (hb : s.byteRead? = some b) : m'.device.tape.value = b := by
  obtain ⟨c, a, j, d, -, hp, rfl, rfl⟩ := step_eq_stepped_iff.mp h
  exact hp.value hb

/-- What a step does to the output, as `Performs.output` says it of an instruction. -/
theorem output_of_step {m m' : Machine} {s : Step} (h : m.step = (.stepped s, m')) :
    (s.byteWritten? = none ∧ m'.device.wiring.output = m.device.wiring.output) ∨
    ∃ b, s.byteWritten? = some b ∧
      m'.device.wiring.output = m.device.wiring.output.put b := by
  obtain ⟨c, a, j, d, -, hp, rfl, rfl⟩ := step_eq_stepped_iff.mp h
  exact hp.output

/-! ## many steps -/

/-- `m.Executes ss m'`: executing steps with the records `ss`, in this order,
takes `m` to `m'`. -/
inductive Executes : Machine → List Step → Machine → Prop where
  | nil (m : Machine) : Executes m [] m
  | cons {m m₁ m₂ : Machine} {s : Step} {ss : List Step} (head : m.step = (.stepped s, m₁))
      (tail : Executes m₁ ss m₂) : Executes m (s :: ss) m₂

namespace Executes

variable {m m₁ m₂ m₃ : Machine} {s : Step} {ss ts : List Step}

theorem append (h : m₁.Executes ss m₂) (h' : m₂.Executes ts m₃) : m₁.Executes (ss ++ ts) m₃ := by
  induction h with
  | nil => exact h'
  | cons head _ ih => exact .cons head (ih h')

/-- Of two executions from one machine, the longer continues the shorter. -/
theorem continues (h : m.Executes ss m₁) (h' : m.Executes ts m₂) (hle : ss.length ≤ ts.length) :
    ∃ us, ts = ss ++ us ∧ m₁.Executes us m₂ := by
  induction h generalizing ts with
  | nil => exact ⟨ts, rfl, h'⟩
  | cons head _ ih =>
    cases h' with
    | nil => simp at hle
    | cons head' tail' =>
      rw [head] at head'
      obtain ⟨hs, rfl⟩ := Prod.mk.inj head'
      obtain rfl := StepResult.stepped.inj hs
      obtain ⟨us, rfl, hu⟩ := ih tail' (by simpa using hle)
      exact ⟨us, rfl, hu⟩

/-- What every step keeps, an execution keeps. -/
theorem preserves {P : Machine → Prop} (h : m₁.Executes ss m₂)
    (hstep : ∀ {m m' : Machine} {s : Step}, m.step = (.stepped s, m') → P m → P m')
    (hP : P m₁) : P m₂ := by
  induction h with
  | nil => exact hP
  | cons head _ ih => exact ih (hstep head hP)

/-- What an execution leaves as it is. -/
theorem frame (h : m₁.Executes ss m₂) :
    m₂.program = m₁.program ∧ m₂.mode = m₁.mode ∧ m₂.limit = m₁.limit ∧ m₂.delay = m₁.delay := by
  refine h.preserves (P := fun m => m.program = m₁.program ∧ m.mode = m₁.mode ∧
    m.limit = m₁.limit ∧ m.delay = m₁.delay) (fun hs hP => ?_) ⟨rfl, rfl, rfl, rfl⟩
  obtain ⟨hprogram, hmode, hlimit, hdelay, -⟩ := frame_of_step hs
  obtain ⟨hp, hm, hl, hd⟩ := hP
  exact ⟨hprogram.trans hp, hmode.trans hm, hlimit.trans hl, hdelay.trans hd⟩

theorem steps_eq (h : m₁.Executes ss m₂) : m₂.steps = m₁.steps + ss.length := by
  induction h with
  | nil => rfl
  | cons head _ ih =>
    obtain ⟨_, _, _, _, -, -, -, rfl⟩ := step_eq_stepped_iff.mp head
    rw [ih, proceeded, List.length_cons, Nat.add_assoc, Nat.add_comm 1]

/-- An execution does not leave the program, and goes no further than right behind it. -/
theorem ip_le (h : m₁.Executes ss m₂) (hle : m₁.ip ≤ m₁.program.size) :
    m₂.ip ≤ m₂.program.size := by
  refine h.preserves (P := fun m => m.ip ≤ m.program.size) (fun hs _ => ?_) hle
  obtain ⟨c, _, j, _, hc, hp, -, rfl⟩ := step_eq_stepped_iff.mp hs
  exact hp.target_lt hc

/-- With all input supplied, the bytes an execution reads are those that waited
at its beginning, in order, and zeros after them. -/
theorem getElem?_byteRead (h : m₁.Executes ss m₂) (hclosed : m₁.device.wiring.input.closed = true)
    {k : Nat} {b : UInt8} (hb : (ss.filterMap Step.byteRead?)[k]? = some b) :
    b = m₁.device.wiring.input.pending[k]?.getD 0 := by
  induction h generalizing k with
  | nil => simp at hb
  | cons head _ ih =>
    obtain ⟨-, -, -, -, -, hclosed₁⟩ := frame_of_step head
    obtain ⟨ha, hd⟩ | ⟨b₀, ha, hd⟩ | ⟨ha, hempty, hd, -⟩ := input_of_step head
    · rw [List.filterMap_cons_none ha] at hb
      rw [← hd]
      exact ih (hclosed₁.trans hclosed) hb
    · rw [List.filterMap_cons_some ha] at hb
      rw [hd]
      cases k with
      | zero => simpa using hb.symm
      | succ k => exact ih (hclosed₁.trans hclosed) hb
    · rw [List.filterMap_cons_some ha] at hb
      rw [hempty]
      cases k with
      | zero => simpa using hb.symm
      | succ k =>
        have hk := ih (hclosed₁.trans hclosed) hb
        rw [hd] at hk
        exact hk

end Executes

end Machine

end Brainfuck
