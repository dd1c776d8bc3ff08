import Brainfuck.Change

/-!
# Brainfuck.Wiring

The part of a tape that other parties hold on to: the input and output pipes,
the cancel flag, and the listeners.  Everything here can be used by anyone at
any time, also after the tape itself is gone.

A reader of input waits while nothing is queued, the input is open and nobody
has cancelled.  Cancelling is sticky, and it goes before everything else: a
cancelled reader gets nothing, even if bytes are queued.

* `intake_eq_cancelled_iff`, `intake_eq_byte_iff`, `intake_eq_ended_iff`,
  `intake_eq_waiting_iff` — what a reader gets, and when.
-/

namespace Brainfuck

/-- The connections of a tape to the outside: bytes for the program and from it, the
request to stop, and those who are told of changes. -/
structure Wiring where
  input : Pipe UInt8
  output : Pipe UInt8
  cancelled : Bool
  audience : Audience

/-- What asking for one byte of input comes to. -/
inductive Intake where
  /-- Nothing is queued, and more may come. -/
  | waiting
  | cancelled
  /-- Nothing is queued, and nothing will come. -/
  | ended
  | byte (b : UInt8) (rest : Wiring)

/-- What asking for one byte of output comes to. -/
inductive Drained where
  | waiting
  | ended
  | byte (b : UInt8) (rest : Wiring)

namespace Wiring

/-- Connections that nobody has used yet. -/
def fresh : Wiring := ⟨.empty, .empty, false, .empty⟩

/-! ## input -/

/-- Queues bytes for the program. -/
def supply (p : Wiring) (bytes : List UInt8) : Wiring := { p with input := p.input.append bytes }

/-- Announces the end of the input. -/
def closeInput (p : Wiring) : Wiring := { p with input := p.input.close }

/-- Asks for the next byte of input. -/
def intake (p : Wiring) : Intake :=
  if p.cancelled then .cancelled
  else
    match p.input.take? with
    | some (b, rest) => .byte b { p with input := rest }
    | none => if p.input.closed then .ended else .waiting

/-! ## output -/

/-- Queues a byte from the program. -/
def emit (p : Wiring) (b : UInt8) : Wiring := { p with output := p.output.put b }

/-- Announces the end of the output. -/
def closeOutput (p : Wiring) : Wiring := { p with output := p.output.close }

/-- Whether output is queued. -/
def hasOutput (p : Wiring) : Bool := !p.output.isEmpty

/-- Asks for the next byte of output. -/
def drain (p : Wiring) : Drained :=
  match p.output.take? with
  | some (b, rest) => .byte b { p with output := rest }
  | none => if p.output.closed then .ended else .waiting

/-- Takes all queued output. -/
def drainAll (p : Wiring) : List UInt8 × Wiring :=
  (p.output.pending, { p with output := p.output.takeAll.2 })

/-- Every byte the program has ever written, drained or not. -/
def emitted (p : Wiring) : List UInt8 := p.output.items.toList

/-! ## cancelling and listening -/

/-- Asks to stop. -/
def cancel (p : Wiring) : Wiring := { p with cancelled := true }

/-- Withdraws the request to stop. -/
def reset (p : Wiring) : Wiring := { p with cancelled := false }

/-- Tells every listener of a change. -/
def post (p : Wiring) (c : Change) : Wiring := { p with audience := p.audience.post c }

@[simp] theorem emitted_emit (p : Wiring) (b : UInt8) :
    (p.emit b).emitted = p.emitted ++ [b] := by
  simp [emit, emitted, Pipe.put]

@[simp] theorem emitted_post (p : Wiring) (c : Change) : (p.post c).emitted = p.emitted := rfl

/-! ## what a reader of input gets -/

theorem intake_eq_cancelled_iff (p : Wiring) : p.intake = .cancelled ↔ p.cancelled = true := by
  unfold intake
  cases p.cancelled with
  | true => simp
  | false => cases p.input.take? <;> cases p.input.closed <;> simp

/-- A reader gets the byte that has waited longest. -/
theorem intake_eq_byte_iff (p rest : Wiring) (b : UInt8) :
    p.intake = .byte b rest ↔
      p.cancelled = false ∧ ∃ q, p.input.take? = some (b, q) ∧ rest = { p with input := q } := by
  unfold intake
  cases p.cancelled with
  | true => simp
  | false =>
    cases ht : p.input.take? with
    | none => cases p.input.closed <;> simp
    | some x =>
      obtain ⟨a, q⟩ := x
      simp only [Bool.false_eq_true, if_false, Intake.byte.injEq, Option.some.injEq,
        Prod.mk.injEq, true_and]
      constructor
      · intro h
        obtain ⟨rfl, rfl⟩ := h
        exact ⟨q, ⟨rfl, rfl⟩, rfl⟩
      · intro h
        obtain ⟨_, ⟨rfl, rfl⟩, rfl⟩ := h
        exact ⟨rfl, rfl⟩

/-- A reader is told of the end only when it has been announced and nothing is queued. -/
theorem intake_eq_ended_iff (p : Wiring) :
    p.intake = .ended ↔
      p.cancelled = false ∧ p.input.pending = [] ∧ p.input.closed = true := by
  rw [← Pipe.take?_eq_none_iff]
  unfold intake
  cases p.cancelled <;> cases p.input.take? <;> cases p.input.closed <;> simp

theorem intake_eq_waiting_iff (p : Wiring) :
    p.intake = .waiting ↔
      p.cancelled = false ∧ p.input.pending = [] ∧ p.input.closed = false := by
  rw [← Pipe.take?_eq_none_iff]
  unfold intake
  cases p.cancelled <;> cases p.input.take? <;> cases p.input.closed <;> simp

end Wiring

end Brainfuck
