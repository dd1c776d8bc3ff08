import Brainfuck.Proofs.Execution

/-!
# Brainfuck.Proofs.Failing

When a step fails, and what is left of it.

An instruction fails for one of four reasons, which can all be seen before it is
tried: a move that would leave a strict tape, one of the two brackets without a
partner where partners are insisted on, and a read that has been cancelled
(`Machine.MustFail`).  There is one reason to wait (`Machine.MustWait`).

* `Tape.move?_eq_none_iff` — which moves a tape refuses;
* `exists_fails_iff`, `exists_waits_iff` — what the instruction at hand fails or
  waits for, in terms of what can be seen;
* `step_fails_exactly` — a step fails for one of these reasons and no other, and
  leaves the machine as it was.
-/

namespace Brainfuck

/-- A tape refuses a move only if it is strict, and only the move that would leave it. -/
theorem Tape.move?_eq_none_iff (t : Tape) (dir : Direction) :
    t.move? dir = none ↔ t.policy = .strict ∧
      match dir with
      | .left => t.pointer = 0
      | .right => t.pointer + 1 = t.capacity := by
  have hpointer : t.pointer < t.capacity := t.pointer_lt
  have hsize : t.cells.size = t.capacity := rfl
  rw [move?, Option.map_eq_none_iff]
  cases dir with
  | left =>
    by_cases h : 0 < t.pointer
    · simp [target?, h, Nat.pos_iff_ne_zero.mp h]
    · cases hp : t.policy <;> simp [target?, hp, Nat.eq_zero_of_not_pos h]
  | right =>
    by_cases h : t.pointer + 1 < t.capacity
    · simp [target?, hsize, h, Nat.ne_of_lt h]
    · have heq : t.pointer + 1 = t.capacity := Nat.le_antisymm hpointer (Nat.le_of_not_lt h)
      cases hp : t.policy <;> simp [target?, hsize, heq, hp]

namespace Machine

/-- `m.MustFail fault`: the next instruction cannot be executed, for a reason that
can be seen. -/
def MustFail (m : Machine) (fault : Fault) : Prop :=
  (∃ c, m.current? = some c ∧ m.device.tape.policy = .strict ∧
    (c = '<' ∧ m.device.tape.pointer = 0 ∨
      c = '>' ∧ m.device.tape.pointer + 1 = m.device.tape.capacity) ∧
    fault = .pointerOutOfBounds m.ip m.device.tape.pointer c) ∨
  (m.current? = some '[' ∧ m.device.tape.value = 0 ∧ m.mode = .strict ∧
    (∀ j, m.ip ≤ j → m.program.at? j ≠ some ']') ∧
    fault = .unmatchedBracket m.ip .opening) ∨
  (m.current? = some ']' ∧ m.device.tape.value ≠ 0 ∧ m.mode = .strict ∧
    (∀ j, j < m.ip → m.program.at? j ≠ some '[') ∧
    fault = .unmatchedBracket m.ip .closing) ∨
  (m.current? = some ',' ∧ m.device.wiring.cancelled = true ∧ fault = .cancelled m.ip)

/-- The next instruction reads, nothing is queued, and more may come. -/
def MustWait (m : Machine) : Prop :=
  m.current? = some ',' ∧ m.device.wiring.cancelled = false ∧
    m.device.wiring.input.pending = [] ∧ m.device.wiring.input.closed = false

variable {m : Machine}

/-! ## the instruction at hand -/

theorem exists_fails_iff {fault : Fault} :
    (∃ c, m.current? = some c ∧ m.Fails c fault) ↔ m.MustFail fault := by
  constructor
  · intro h
    obtain ⟨c, hc, hfails⟩ := h
    cases hfails with
    | @move dir hi h =>
      obtain ⟨hstrict, hedge⟩ := (Tape.move?_eq_none_iff _ _).mp h
      refine .inl ⟨c, hc, hstrict, ?_, rfl⟩
      cases dir with
      | left => exact .inl ⟨Instruction.eq_of_symbol? hi rfl, hedge⟩
      | right => exact .inr ⟨Instruction.eq_of_symbol? hi rfl, hedge⟩
    | loopStart hi h hj hm =>
      obtain rfl := Instruction.eq_of_symbol? hi rfl
      exact .inr (.inl ⟨hc, h, hm, (Program.firstClose?_eq_none_iff _ _).mp hj, rfl⟩)
    | loopEnd hi h hj hm =>
      obtain rfl := Instruction.eq_of_symbol? hi rfl
      exact .inr (.inr (.inl ⟨hc, h, hm, (Program.lastOpen?_eq_none_iff _ _).mp hj, rfl⟩))
    | read hi h =>
      obtain rfl := Instruction.eq_of_symbol? hi rfl
      exact .inr (.inr (.inr ⟨hc, (Wiring.intake_eq_cancelled_iff _).mp h, rfl⟩))
  · intro h
    obtain ⟨c, hc, hstrict, hedge, rfl⟩ | ⟨hc, h, hm, hj, rfl⟩ | ⟨hc, h, hm, hj, rfl⟩ |
      ⟨hc, h, rfl⟩ := h
    · refine ⟨c, hc, ?_⟩
      obtain ⟨rfl, hedge⟩ | ⟨rfl, hedge⟩ := hedge
      · exact .move rfl ((Tape.move?_eq_none_iff _ .left).mpr ⟨hstrict, hedge⟩)
      · exact .move rfl ((Tape.move?_eq_none_iff _ .right).mpr ⟨hstrict, hedge⟩)
    · exact ⟨'[', hc, .loopStart rfl h ((Program.firstClose?_eq_none_iff _ _).mpr hj) hm⟩
    · exact ⟨']', hc, .loopEnd rfl h ((Program.lastOpen?_eq_none_iff _ _).mpr hj) hm⟩
    · exact ⟨',', hc, .read rfl ((Wiring.intake_eq_cancelled_iff _).mpr h)⟩

theorem exists_waits_iff : (∃ c, m.current? = some c ∧ m.Waits c) ↔ m.MustWait := by
  constructor
  · intro h
    obtain ⟨c, hc, hi, h⟩ := h
    obtain rfl := Instruction.eq_of_symbol? hi rfl
    exact ⟨hc, (Wiring.intake_eq_waiting_iff _).mp h⟩
  · intro h
    obtain ⟨hc, h⟩ := h
    exact ⟨',', hc, rfl, (Wiring.intake_eq_waiting_iff _).mpr h⟩

/-! ## one step -/

/-- A step fails exactly when it must, with the fault that says why and where, and
waits exactly when it must; either way the machine is left as it was, with its tape,
its pipes and its listeners.  If the program has not ended, any other instruction
is executed. -/
theorem step_fails_exactly (m : Machine) :
    (∀ fault m', m.step = (.failed fault, m') ↔ m.MustFail fault ∧ m' = m) ∧
      (∀ m', m.step = (.waiting, m') ↔ m.MustWait ∧ m' = m) ∧
      (m.isFinished = false → ¬ m.MustWait → (∀ fault, ¬ m.MustFail fault) →
        ∃ s m', m.step = (.stepped s, m')) := by
  refine ⟨fun fault m' => ?_, fun m' => ?_, fun hfinished hwait hfail => ?_⟩
  · rw [step_eq_failed_iff, exists_fails_iff, and_comm]
  · rw [step_eq_waiting_iff, exists_waits_iff, and_comm]
  · obtain ⟨hf, -⟩ | ⟨c, a, j, d, -, -, h⟩ | ⟨c, fault, hc, h, -⟩ | ⟨c, hc, h, -⟩ := m.step_cases
    · rw [hfinished] at hf
      cases hf
    · exact ⟨_, _, h⟩
    · exact absurd (exists_fails_iff.mp ⟨c, hc, h⟩) (hfail fault)
    · exact absurd (exists_waits_iff.mp ⟨c, hc, h⟩) hwait

/-- A read that has been cancelled, although a byte is queued and the input has ended;
and a move over the edge of a tape that wraps around. -/
theorem cancelled_before_queued_bytes :
    let w : Wiring := ((Wiring.fresh.supply [65]).closeInput).cancel
    let m : Machine := { Machine.load ⟨#['+', ',']⟩ ⟨.blank 1 .strict, w⟩ with ip := 1 }
    let wrapping : Machine := .load ⟨#['<']⟩ (.blank 2 .wrap)
    m.device.wiring.input.pending = [65] ∧ m.step = (.failed (.cancelled 1), m) ∧
      wrapping.isFinished = false ∧ ¬ wrapping.MustWait ∧ (∀ fault, ¬ wrapping.MustFail fault) ∧
      ∃ s m', wrapping.step = (.stepped s, m') := by
  intro w m wrapping
  have hc : wrapping.current? = some '<' := rfl
  have hwait : ¬ wrapping.MustWait := fun h => absurd (hc.symm.trans h.1) (by decide)
  have hfail : ∀ fault, ¬ wrapping.MustFail fault := by
    intro fault h
    obtain ⟨_, _, h, _⟩ | ⟨h, _⟩ | ⟨h, _⟩ | ⟨h, _⟩ := h
    · cases h
    all_goals exact absurd (hc.symm.trans h) (by decide)
  obtain ⟨hfails, -, -⟩ := step_fails_exactly m
  obtain ⟨-, -, hruns⟩ := step_fails_exactly wrapping
  refine ⟨rfl, (hfails _ m).mpr ⟨?_, rfl⟩, rfl, hwait, hfail, hruns rfl hwait hfail⟩
  exact .inr (.inr (.inr ⟨rfl, rfl, rfl⟩))

end Machine

end Brainfuck
