import Brainfuck.Proofs.Reach
import Brainfuck.Proofs.Running

/-!
# Brainfuck.Proofs.Strictness

Strict settings only cut a run short.

A strict machine has a tape that refuses to be left and insists on partners for
its brackets.  Its lenient form (`Machine.lenient`) differs in these two settings
and in nothing else: moves wrap around, and brackets without a partner are passed.

* `step_lenient` — whatever the strict machine executes, the lenient one
  executes, with the same record;
* `step_of_outOfBounds`, `step_of_unmatched` — where the strict machine fails,
  the lenient one wraps around or falls through;
* `step_of_lenient` — and it does so nowhere else.

So the two go in step until the strict machine fails (`strict_cuts_short`).  What
counts as wrapping is read off the record (`Step.Wraps`), since the pointer
alone does not show it: on a tape of one cell a move that wraps around does not
move the pointer.
-/

namespace Brainfuck

/-! ## the tape under another policy -/

/-- The direction back. -/
def Direction.opposite : Direction → Direction
  | .left => .right
  | .right => .left

namespace Tape

/-- The tape under another policy. -/
def under (t : Tape) (policy : PointerPolicy) : Tape := { t with policy := policy }

/-- The last cell in a direction. -/
def edge (t : Tape) : Direction → Nat
  | .left => 0
  | .right => t.capacity - 1

variable {t t' : Tape} {dir : Direction}

/-- A move stays on the tape and is the same under every policy, or it starts at the
edge, where a strict tape refuses it and a wrapping tape goes to the opposite edge. -/
theorem move?_cases (t : Tape) (dir : Direction) :
    (∃ i, ∀ policy, (t.under policy).move? dir = some ((t.seek i).under policy)) ∨
    t.pointer = t.edge dir ∧ (t.under .strict).move? dir = none ∧
      ∃ i, (t.under .wrap).move? dir = some ((t.seek i).under .wrap) ∧
        i.val = t.edge dir.opposite := by
  have hpointer := t.pointer_lt
  cases dir with
  | left =>
    by_cases h : 0 < t.pointer
    · exact .inl ⟨⟨t.pointer - 1, Nat.lt_of_le_of_lt (Nat.sub_le ..) hpointer⟩, fun policy => by
        simp [move?, target?, under, seek, h]⟩
    · refine .inr ⟨Nat.eq_zero_of_not_pos h, by simp [move?, target?, under, h],
        ⟨t.cells.size - 1, Nat.sub_one_lt_of_lt hpointer⟩, ?_, rfl⟩
      simp [move?, target?, under, seek, h]
  | right =>
    by_cases h : t.pointer + 1 < t.cells.size
    · exact .inl ⟨⟨t.pointer + 1, h⟩, fun policy => by simp [move?, target?, under, seek, h]⟩
    · refine .inr ⟨?_, by simp [move?, target?, under, h], ⟨0, Nat.zero_lt_of_lt hpointer⟩, ?_, rfl⟩
      · rw [edge, capacity]
        omega
      · simp [move?, target?, under, seek, h]

/-- A move that a strict tape allows is the same move under every policy. -/
theorem move?_under (ht : t.policy = .strict) (h : t.move? dir = some t')
    (policy : PointerPolicy) : (t.under policy).move? dir = some (t'.under policy) := by
  have hself : t.under .strict = t := by rw [← ht]; rfl
  obtain ⟨i, hi⟩ | ⟨-, hnone, -⟩ := t.move?_cases dir
  · have hstrict := hi .strict
    rw [hself, h] at hstrict
    rw [hi policy, Option.some.inj hstrict]
    rfl
  · rw [hself, h] at hnone
    cases hnone

/-- A move is refused only at the edge, and leads a wrapping tape to the opposite edge. -/
theorem exists_wrap (h : t.move? dir = none) :
    t.pointer = t.edge dir ∧
      ∃ t', (t.under .wrap).move? dir = some t' ∧ t'.pointer = t.edge dir.opposite := by
  obtain ⟨i, hi⟩ | ⟨hedge, -, i, hi, hopposite⟩ := t.move?_cases dir
  · have hsome := hi t.policy
    rw [show t.under t.policy = t from rfl, h] at hsome
    cases hsome
  · exact ⟨hedge, _, hi, hopposite⟩

end Tape

/-- A move over an edge of a tape with this many cells: to the left from the first
cell to the last, or to the right from the last to the first. -/
def Step.Wraps (capacity : Nat) (s : Step) : Prop :=
  s.instruction = '<' ∧ s.pointer = 0 ∧ s.action = .moved (capacity - 1) ∨
    s.instruction = '>' ∧ s.pointer = capacity - 1 ∧ s.action = .moved 0

namespace Machine

/-- Both settings are strict. -/
structure Strict (m : Machine) : Prop where
  policy : m.device.tape.policy = .strict
  mode : m.mode = .strict

/-- The machine with both settings lenient. -/
def lenient (m : Machine) : Machine :=
  { m with
    device := { m.device with tape := m.device.tape.under .wrap }
    mode := .permissive }

variable {m m' : Machine} {s : Step}

theorem Strict.of_step (h : m.step = (.stepped s, m')) (hm : m.Strict) : m'.Strict := by
  obtain ⟨-, hmode, -⟩ := frame_of_step h
  exact ⟨(touches_of_step h).policy_capacity.1.trans hm.policy, hmode.trans hm.mode⟩

theorem capacity_of_step (h : m.step = (.stepped s, m')) :
    m'.device.tape.capacity = m.device.tape.capacity :=
  (touches_of_step h).policy_capacity.2

/-! ## what the strict machine executes -/

theorem Performs.lenient {i : Instruction} {a : Action} {j : Nat} {d : Device} (hm : m.Strict)
    (h : m.Performs i a j d) :
    m.lenient.Performs i a j { d with tape := d.tape.under .wrap } := by
  cases h with
  | move h =>
    have hmove : m.lenient.device.tape.move? _ = some _ := Tape.move?_under hm.policy h .wrap
    exact .move hmove
  | increment => exact .increment
  | decrement => exact .decrement
  | write => exact .write
  | readByte h => exact .readByte h
  | readEnd h => exact .readEnd h
  | enterLoop h => exact .enterLoop h
  | jumpForward h hj => exact .jumpForward h hj
  | exitLoop h => exact .exitLoop h
  | jumpBack h hj => exact .jumpBack h hj
  | comment => exact .comment
  | passStart _ _ hmode => rw [hm.mode] at hmode; cases hmode
  | passEnd _ _ hmode => rw [hm.mode] at hmode; cases hmode

theorem step_lenient (hm : m.Strict) (h : m.step = (.stepped s, m')) :
    m.lenient.step = (.stepped s, m'.lenient) := by
  obtain ⟨c, a, j, d, hc, hp, rfl, rfl⟩ := step_eq_stepped_iff.mp h
  exact step_eq_stepped_iff.mpr ⟨c, a, j, _, hc, hp.lenient hm, rfl, rfl⟩

/-- The lenient machine goes through everything that the strict machine executes. -/
theorem Executes.lenient {ss : List Step} (h : m.Executes ss m') (hm : m.Strict) :
    m.lenient.Executes ss m'.lenient := by
  induction h with
  | nil => exact .nil _
  | cons head _ ih => exact .cons (step_lenient hm head) (ih (hm.of_step head))

/-! ## where the strict machine fails -/

/-- Where the tape refuses a move, the lenient machine wraps around. -/
theorem step_of_outOfBounds {ip pointer : Nat} {c : Char}
    (h : m.Stops (some (.pointerOutOfBounds ip pointer c))) :
    ∃ s m', m.lenient.step = (.stepped s, m') ∧ s.Wraps m.device.tape.capacity := by
  obtain ⟨-, c', hc, hfail⟩ := step_eq_failed_iff.mp h
  cases hfail with
  | @move dir hi hmove =>
    obtain ⟨hedge, t, ht, hpointer⟩ := Tape.exists_wrap hmove
    have hmove' : m.lenient.device.tape.move? dir = some t := ht
    have hp := Performs.move hmove'
    rw [← hi] at hp
    refine ⟨_, _, step_eq_stepped_iff.mpr ⟨c, _, _, _, hc, hp, rfl, rfl⟩, ?_⟩
    cases dir with
    | left =>
      exact .inl ⟨Instruction.eq_of_symbol? hi rfl, hedge, congrArg Action.moved hpointer⟩
    | right =>
      exact .inr ⟨Instruction.eq_of_symbol? hi rfl, hedge, congrArg Action.moved hpointer⟩

/-- Where a bracket has no partner, the lenient machine falls through to the next
position. -/
theorem step_of_unmatched {ip : Nat} {bracket : Bracket}
    (h : m.Stops (some (.unmatchedBracket ip bracket))) :
    ∃ s m', m.lenient.step = (.stepped s, m') ∧ s.action = .fellThrough ∧ m'.ip = m.ip + 1 := by
  obtain ⟨-, c, hc, hfail⟩ := step_eq_failed_iff.mp h
  have hp : m.lenient.Performs (Instruction.ofChar c) .fellThrough m.ip m.lenient.device := by
    cases hfail with
    | loopStart hi hv hj => rw [hi]; exact .passStart hv hj rfl
    | loopEnd hi hv hj => rw [hi]; exact .passEnd hv hj rfl
  exact ⟨_, _, step_eq_stepped_iff.mpr ⟨c, _, _, _, hc, hp, rfl, rfl⟩, rfl, rfl⟩

/-! ## what the lenient machine executes -/

/-- A step of the lenient machine that neither wraps around nor falls through is a
step of the strict machine. -/
theorem step_of_lenient {n : Machine} (hm : m.Strict) (h : m.lenient.step = (.stepped s, n))
    (hwraps : ¬ s.Wraps m.device.tape.capacity) (hfalls : s.action ≠ .fellThrough) :
    ∃ m', m.step = (.stepped s, m') ∧ n = m'.lenient := by
  have hsame : ∀ {s' : Step} {n' : Machine}, m.lenient.step = (.stepped s', n') →
      s = s' ∧ n = n' := by
    intro s' n' h'
    rw [h] at h'
    obtain ⟨hs, hn⟩ := Prod.mk.inj h'
    exact ⟨StepResult.stepped.inj hs, hn⟩
  obtain ⟨hf, -⟩ | ⟨c, a, j, d, -, -, hstep⟩ | ⟨c, fault, hc, hfail, hstep⟩ | ⟨c, hc, hw, -⟩ :=
    m.step_cases
  · have hf' : m.lenient.isFinished = true := hf
    rw [step_eq_finished_iff.mpr ⟨rfl, hf'⟩] at h
    cases h
  · obtain ⟨rfl, rfl⟩ := hsame (step_lenient hm hstep)
    exact ⟨_, hstep, rfl⟩
  · cases hfail with
    | move hi hmove =>
      obtain ⟨s', n', h', hs'⟩ := step_of_outOfBounds hstep
      exact absurd ((hsame h').1 ▸ hs') hwraps
    | read hi hcancelled =>
      have hfail' : m.lenient.Fails c (.cancelled m.ip) := .read hi hcancelled
      rw [step_eq_failed_iff (m := m.lenient).mpr ⟨rfl, c, hc, hfail'⟩] at h
      cases h
    | loopStart | loopEnd =>
      obtain ⟨s', n', h', hs', -⟩ := step_of_unmatched hstep
      exact absurd ((hsame h').1 ▸ hs') hfalls
  · rw [step_eq_waiting_iff (m := m.lenient).mpr ⟨rfl, c, hc, hw⟩] at h
    cases h

theorem Executes.of_lenient {ss : List Step} {n : Machine} (hm : m.Strict)
    (h : m.lenient.Executes ss n)
    (hss : ∀ s ∈ ss, ¬ s.Wraps m.device.tape.capacity ∧ s.action ≠ .fellThrough) :
    ∃ m', m.Executes ss m' ∧ n = m'.lenient := by
  induction ss generalizing m with
  | nil =>
    cases h
    exact ⟨m, .nil m, rfl⟩
  | cons s ss ih =>
    obtain ⟨hs, hss⟩ := List.forall_mem_cons.mp hss
    cases h with
    | cons head tail =>
      obtain ⟨m₁, hstep, rfl⟩ := step_of_lenient hm head hs.1 hs.2
      rw [← capacity_of_step hstep] at hss
      obtain ⟨m', hex, heq⟩ := ih (hm.of_step hstep) tail hss
      exact ⟨m', .cons hstep hex, heq⟩

/-- **Strict settings only cut a run short.** As long as the strict machine goes on,
the lenient one executes the same steps and comes to the same machine but for the
two settings.  Where the strict machine fails for one of them, the lenient one wraps
around or falls through, and it goes on alone only after it has done so. -/
theorem strict_cuts_short (m : Machine) (hm : m.Strict) :
    (∀ ss m', m.Executes ss m' →
      m.lenient.Executes ss m'.lenient ∧
      (∀ ip pointer c, m'.Stops (some (.pointerOutOfBounds ip pointer c)) →
        ∃ s n, m'.lenient.step = (.stepped s, n) ∧ s.Wraps m.device.tape.capacity) ∧
      (∀ ip bracket, m'.Stops (some (.unmatchedBracket ip bracket)) →
        ∃ s n, m'.lenient.step = (.stepped s, n) ∧ s.action = .fellThrough ∧
          n.ip = m'.lenient.ip + 1)) ∧
    (∀ ss n, m.lenient.Executes ss n →
      (∀ s ∈ ss, ¬ s.Wraps m.device.tape.capacity ∧ s.action ≠ .fellThrough) →
      ∃ m', m.Executes ss m' ∧ n = m'.lenient) := by
  refine ⟨fun ss m' hex => ⟨hex.lenient hm, fun ip pointer c hstop => ?_,
    fun ip bracket hstop => ?_⟩, fun ss n hex hss => hex.of_lenient hm hss⟩
  · have hcapacity : m'.device.tape.capacity = m.device.tape.capacity :=
      hex.preserves (P := fun n => n.device.tape.capacity = m.device.tape.capacity)
        (fun hs hP => (capacity_of_step hs).trans hP) rfl
    rw [← hcapacity]
    exact step_of_outOfBounds hstop
  · exact step_of_unmatched hstop

/-- On a tape of one cell the lenient machine wraps around where the strict one
fails, from the only cell to itself. -/
theorem wraps_on_one_cell :
    let m : Machine := { load ⟨#['+', '>']⟩ (.blank 1 .strict) with mode := .strict }
    m.Strict ∧ ∃ s m', m.Executes [s] m' ∧
      m'.Stops (some (.pointerOutOfBounds 1 0 '>')) ∧ m.lenient.Executes [s] m'.lenient ∧
      ∃ s' n, m'.lenient.step = (.stepped s', n) ∧ s'.Wraps 1 := by
  intro m
  have hm : m.Strict := ⟨rfl, rfl⟩
  have hstep : m.step = (.stepped ⟨0, '+', 0, 0, .incremented 0 1⟩, m.step.2) :=
    Prod.ext (by decide) rfl
  have hex : m.Executes [_] m.step.2 := .cons hstep (.nil _)
  have hstop : m.step.2.Stops (some (.pointerOutOfBounds 1 0 '>')) :=
    step_eq_failed_iff.mpr ⟨rfl, '>', rfl, .move rfl rfl⟩
  obtain ⟨hlenient, hwraps, -⟩ := (strict_cuts_short m hm).1 _ _ hex
  exact ⟨hm, _, _, hex, hstop, hlenient, hwraps _ _ _ hstop⟩

end Machine

end Brainfuck
