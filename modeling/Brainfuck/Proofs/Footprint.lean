import Brainfuck.Proofs.Halting
import Brainfuck.Proofs.Reach

/-!
# Brainfuck.Proofs.Footprint

How many cells a strict run needs: as many as its high-water mark says.

A program has one way to find out how long a strict tape is, a move to the right
from the last cell.  So tapes that read alike (`Tape.Alike`) lead to the same
run as long as the longer mark still has a cell on the other tape:

* `step_on`, `Executes.on`, `Halts.on` — the machine on another tape takes the
  same steps and stops with the same result;
* `Executes.exists_gain`, `raise_of_step` — an execution that comes to a new mark
  does so in one step, which is a move to the right;
* `mark_is_cells_needed` — what this means for fresh tapes of every length.
-/

namespace Brainfuck

/-! ## tapes that read alike -/

namespace Tape

/-- Two strict tapes that a program tells apart only by their lengths. -/
structure Alike (t t' : Tape) : Prop where
  strict : t.policy = .strict
  strict' : t'.policy = .strict
  pointer : t'.pointer = t.pointer
  mark : t'.mark = t.mark
  cell : ∀ i, t'.cell i = t.cell i

/-- A move in this direction leads to the cell `i`, if there is one. -/
def Beside (t : Tape) (i : Nat) : Direction → Prop
  | .left => i + 1 = t.pointer
  | .right => i = t.pointer + 1

variable {t t' u : Tape} {dir : Direction}

/-- A strict tape moves to the next cell in a direction, or not at all. -/
theorem move?_eq_some_iff (ht : t.policy = .strict) :
    t.move? dir = some u ↔ ∃ i : Fin t.cells.size, t.Beside i dir ∧ u = t.seek i := by
  have hpointer := t.pointer_lt
  cases dir with
  | left =>
    simp only [move?, target?, Option.map_eq_some_iff, ht, Beside]
    constructor
    · intro h
      obtain ⟨i, hi, rfl⟩ := h
      split at hi
      · obtain rfl := Option.some.inj hi
        exact ⟨_, Nat.sub_add_cancel ‹_›, rfl⟩
      · cases hi
    · intro h
      obtain ⟨i, hi, rfl⟩ := h
      refine ⟨i, ?_, rfl⟩
      rw [if_pos (by omega)]
      exact congrArg some (Fin.ext (by simp only; omega))
  | right =>
    simp only [move?, target?, Option.map_eq_some_iff, ht, Beside]
    constructor
    · intro h
      obtain ⟨i, hi, rfl⟩ := h
      split at hi
      · obtain rfl := Option.some.inj hi
        exact ⟨_, rfl, rfl⟩
      · cases hi
    · intro h
      obtain ⟨i, hi, rfl⟩ := h
      refine ⟨i, ?_, rfl⟩
      rw [dif_pos (hi ▸ i.isLt)]
      exact congrArg some (Fin.ext hi.symm)

theorem move?_eq_none_of_last (ht : t.policy = .strict) (h : t.pointer + 1 = t.capacity) :
    t.move? .right = none := by
  cases hmove : t.move? .right with
  | none => rfl
  | some u =>
    obtain ⟨i, hi, -⟩ := (move?_eq_some_iff ht).mp hmove
    have hi : i.val = t.pointer + 1 := hi
    exact absurd i.isLt (by rw [hi, h]; exact Nat.lt_irrefl _)

theorem alike_blank (capacity capacity' : Nat) :
    (blank capacity .strict).Alike (blank capacity' .strict) :=
  ⟨rfl, rfl, rfl, rfl, fun i => by rw [cell_blank, cell_blank]⟩

namespace Alike

theorem value (h : t.Alike t') : t'.value = t.value := by
  rw [value_eq_cell, value_eq_cell, h.pointer, h.cell]

theorem store (h : t.Alike t') (v : UInt8) : (t.store v).Alike (t'.store v) where
  strict := h.strict
  strict' := h.strict'
  pointer := h.pointer
  mark := h.mark
  cell i := by rw [cell_store, cell_store, h.pointer, h.cell]

/-- A move leads to tapes that read alike if the other tape has a cell there. -/
theorem move? (h : t.Alike t') (hmove : t.move? dir = some u) (hroom : u.mark < t'.capacity) :
    ∃ u', t'.move? dir = some u' ∧ u.Alike u' ∧ u'.capacity = t'.capacity := by
  obtain ⟨i, hi, rfl⟩ := (move?_eq_some_iff h.strict).mp hmove
  have hlt : i.val < t'.cells.size := Nat.lt_of_le_of_lt (Nat.le_max_right _ _) hroom
  have hbeside : t'.Beside i dir := by
    cases dir with
    | left => exact hi.trans h.pointer.symm
    | right => exact hi.trans (congrArg (· + 1) h.pointer.symm)
  refine ⟨t'.seek ⟨i, hlt⟩, (move?_eq_some_iff h.strict').mpr ⟨⟨i, hlt⟩, hbeside, rfl⟩, ?_, rfl⟩
  exact ⟨h.strict, h.strict', rfl, congrArg (max · i.val) h.mark, h.cell⟩

/-- The left end of a tape does not depend on how long it is. -/
theorem move?_left_eq_none (h : t.Alike t') (hmove : t.move? .left = none) :
    t'.move? .left = none := by
  cases hmove' : t'.move? .left with
  | none => rfl
  | some u =>
    obtain ⟨i, hi, -⟩ := (move?_eq_some_iff h.strict').mp hmove'
    have hi : i.val + 1 = t.pointer := hi.trans h.pointer
    have hlt : i.val < t.cells.size := Nat.lt_trans (by omega) t.pointer_lt
    have hsome : t.move? .left = some (t.seek ⟨i, hlt⟩) :=
      (move?_eq_some_iff h.strict).mpr ⟨⟨i, hlt⟩, hi, rfl⟩
    rw [hmove] at hsome
    cases hsome

end Alike

end Tape

/-! ## the machine on another tape -/

namespace Machine

/-- The machine on another tape. -/
def on (m : Machine) (t : Tape) : Machine := { m with device := { m.device with tape := t } }

variable {m m' : Machine} {t : Tape} {s : Step} {ss : List Step}

/-- What is announced of a tape is announced of every tape that reads like it. -/
theorem announce_alike {d : Device} (h : d.tape.Alike t) (kind : ChangeKind) :
    ({ d with tape := t } : Device).announce kind = { d.announce kind with tape := t } := by
  simp only [Device.announce, Device.snapshot, h.pointer, h.mark, h.value]

/-- An instruction that stays on the other tape can be performed there. -/
theorem Performs.on {i : Instruction} {a : Action} {j : Nat} {d : Device} (h : m.Performs i a j d)
    (ht : m.device.tape.Alike t) (hroom : d.tape.mark < t.capacity) :
    ∃ t', (m.on t).Performs i a j { d with tape := t' } ∧ d.tape.Alike t' ∧
      t'.capacity = t.capacity := by
  have hvalue : (m.on t).device.tape.value = m.device.tape.value := ht.value
  have hstore : ∀ v w kind, ({ tape := t.store v, wiring := w } : Device).announce kind =
      { (({ tape := m.device.tape.store v, wiring := w } : Device).announce kind) with
        tape := t.store v } := fun v w kind =>
    announce_alike (d := ⟨m.device.tape.store v, w⟩) (ht.store v) kind
  cases h with
  | @move dir u hmove =>
    obtain ⟨u', hmove', hu, hcapacity⟩ := ht.move? hmove hroom
    have hp : (m.on t).Performs (.move dir) _ _ _ := .move hmove'
    have hannounce := announce_alike (d := { m.device with tape := u }) hu .pointerMoved
    rw [hu.pointer] at hp
    exact ⟨u', hannounce ▸ hp, hu, hcapacity⟩
  | increment =>
    refine ⟨_, ?_, ht.store _, Tape.capacity_store t _⟩
    have hp := Performs.increment (m := m.on t)
    rw [Device.increment, Tape.increment, hvalue] at hp
    exact hstore _ _ _ ▸ hp
  | decrement =>
    refine ⟨_, ?_, ht.store _, Tape.capacity_store t _⟩
    have hp := Performs.decrement (m := m.on t)
    rw [Device.decrement, Tape.decrement, hvalue] at hp
    exact hstore _ _ _ ▸ hp
  | write =>
    refine ⟨t, ?_, ht, rfl⟩
    have hp := Performs.write (m := m.on t)
    rw [Device.write, hvalue] at hp
    exact announce_alike (d := { m.device with wiring := m.device.wiring.emit _ }) ht _ ▸ hp
  | readByte h =>
    have hp := Performs.readByte (m := m.on t) h
    exact ⟨_, hstore _ _ _ ▸ hp, ht.store _, Tape.capacity_store t _⟩
  | readEnd h =>
    have hp := Performs.readEnd (m := m.on t) h
    exact ⟨_, hstore _ _ _ ▸ hp, ht.store _, Tape.capacity_store t _⟩
  | enterLoop h => exact ⟨t, .enterLoop (hvalue ▸ h), ht, rfl⟩
  | jumpForward h hj => exact ⟨t, .jumpForward (hvalue.trans h) hj, ht, rfl⟩
  | passStart h hj hm => exact ⟨t, .passStart (hvalue.trans h) hj hm, ht, rfl⟩
  | exitLoop h => exact ⟨t, .exitLoop (hvalue.trans h), ht, rfl⟩
  | jumpBack h hj => exact ⟨t, .jumpBack (hvalue ▸ h) hj, ht, rfl⟩
  | passEnd h hj hm => exact ⟨t, .passEnd (hvalue ▸ h) hj hm, ht, rfl⟩
  | comment => exact ⟨t, .comment, ht, rfl⟩

theorem step_on (h : m.step = (.stepped s, m')) (ht : m.device.tape.Alike t)
    (hroom : m'.device.tape.mark < t.capacity) :
    ∃ t', (m.on t).step = (.stepped s, m'.on t') ∧ m'.device.tape.Alike t' ∧
      t'.capacity = t.capacity := by
  obtain ⟨c, a, j, d, hc, hp, rfl, rfl⟩ := step_eq_stepped_iff.mp h
  obtain ⟨t', hp', ht', hcapacity⟩ := hp.on ht hroom
  have hsight : (m.on t).sight c = m.sight c := by
    simp only [sight, on, ht.pointer, ht.value]
  refine ⟨t', step_eq_stepped_iff.mpr ⟨c, a, j, _, hc, hp', ?_, rfl⟩, ht', hcapacity⟩
  rw [hsight]

/-- As long as the other tape has the cells, the same steps are taken on it. -/
theorem Executes.on (h : m.Executes ss m') (ht : m.device.tape.Alike t)
    (hroom : m'.device.tape.mark < t.capacity) :
    ∃ t', (m.on t).Executes ss (m'.on t') ∧ m'.device.tape.Alike t' ∧
      t'.capacity = t.capacity := by
  induction h generalizing t with
  | nil m => exact ⟨t, .nil _, ht, rfl⟩
  | cons head tail ih =>
    obtain ⟨t₁, hstep, ht₁, hcapacity₁⟩ := step_on head ht (Nat.lt_of_le_of_lt tail.mark_le hroom)
    obtain ⟨t', hex, ht', hcapacity⟩ := ih ht₁ (hcapacity₁ ▸ hroom)
    exact ⟨t', .cons hstep hex, ht', hcapacity.trans hcapacity₁⟩

/-- A fault that is no move to the right does not depend on the other cells. -/
theorem Fails.on {c : Char} {fault : Fault} (h : m.Fails c fault) (ht : m.device.tape.Alike t)
    (hfault : ∀ ip pointer, fault ≠ .pointerOutOfBounds ip pointer '>') :
    (m.on t).Fails c fault := by
  have hvalue : (m.on t).device.tape.value = m.device.tape.value := ht.value
  cases h with
  | @move dir hc hmove =>
    cases dir with
    | left =>
      rw [← ht.pointer]
      exact .move hc (ht.move?_left_eq_none hmove)
    | right =>
      obtain rfl := Instruction.eq_of_symbol? hc rfl
      exact absurd rfl (hfault _ _)
  | read hc h => exact .read hc h
  | loopStart hc h hj hm => exact .loopStart hc (hvalue.trans h) hj hm
  | loopEnd hc h hj hm => exact .loopEnd hc (hvalue ▸ h) hj hm

theorem Halts.on {fault : Option Fault} (h : m.Halts fault) (ht : m.device.tape.Alike t)
    (hfault : ∀ ip pointer, fault ≠ some (.pointerOutOfBounds ip pointer '>')) :
    (m.on t).Halts fault := by
  cases h with
  | test h => exact .test h
  | step h hstep =>
    obtain ⟨-, c, hc, hfail⟩ := step_eq_failed_iff.mp hstep
    refine .step h (step_eq_failed_iff.mpr ⟨rfl, c, hc, hfail.on ht fun ip pointer he => ?_⟩)
    exact hfault ip pointer (congrArg some he)

/-! ## where a new mark is reached -/

/-- What an execution gains, it gains in one step. -/
theorem Executes.exists_gain {P : Machine → Prop} (h : m.Executes ss m') (hm : ¬ P m)
    (hm' : P m') :
    ∃ ss₁ s ss₂ m₁ m₂, ss = ss₁ ++ s :: ss₂ ∧ m.Executes ss₁ m₁ ∧ ¬ P m₁ ∧
      m₁.step = (.stepped s, m₂) ∧ P m₂ := by
  induction h with
  | nil => exact absurd hm' hm
  | @cons m m₁ m₂ s ss head tail ih =>
    by_cases hm₁ : P m₁
    · exact ⟨[], s, ss, m, m₁, rfl, .nil m, hm, head, hm₁⟩
    · obtain ⟨ss₁, s', ss₂, n₁, n₂, rfl, hex, hn₁, hstep, hn₂⟩ := ih hm₁ hm'
      exact ⟨s :: ss₁, s', ss₂, n₁, n₂, rfl, .cons head hex, hn₁, hstep, hn₂⟩

/-- No move of an execution has gone beyond the mark. -/
theorem Executes.target_le (h : m.Executes ss m') {j : Nat} (hs : s ∈ ss)
    (hj : s.action = .moved j) : j ≤ m'.device.tape.mark := by
  induction h with
  | nil => cases hs
  | cons head tail ih =>
    cases hs with
    | tail _ hs => exact ih hs
    | head =>
      obtain ⟨c, a, i, d, -, hp, rfl, rfl⟩ := step_eq_stepped_iff.mp head
      obtain rfl : a = .moved j := hj
      generalize Instruction.ofChar c = i at hp
      cases hp with
      | @move dir t hmove => exact Nat.le_trans t.pointer_le tail.mark_le

/-- On a strict tape only a move to the right from the last cell so far raises the
mark, and by one. -/
theorem raise_of_step {n : Nat} (h : m.step = (.stepped s, m'))
    (hstrict : m.device.tape.policy = .strict) (hlt : m.device.tape.mark < n)
    (hle : n ≤ m'.device.tape.mark) :
    m.current? = some '>' ∧ m.device.tape.pointer + 1 = n ∧
      s = { m.sight '>' with action := .moved n } := by
  obtain ⟨c, a, j, d, hc, hp, rfl, rfl⟩ := step_eq_stepped_iff.mp h
  have hle : n ≤ d.tape.mark := hle
  have hpointer := m.device.tape.pointer_le
  generalize hi : Instruction.ofChar c = i at hp
  cases hp with
  | @move dir t hmove =>
    obtain ⟨k, hk, rfl⟩ := (Tape.move?_eq_some_iff hstrict).mp hmove
    have hle : n ≤ max m.device.tape.mark k := hle
    have hk' : n ≤ k := by omega
    cases dir with
    | left =>
      have hk : k.val + 1 = m.device.tape.pointer := hk
      omega
    | right =>
      have hk : k.val = m.device.tape.pointer + 1 := hk
      obtain rfl : n = k := by omega
      obtain rfl := Instruction.eq_of_symbol? hi rfl
      exact ⟨hc, hk.symm, rfl⟩
  | _ => exact absurd hle (Nat.not_le_of_lt hlt)

/-- Where the longer tape reaches its cell `n` for the first time, a tape of `n`
cells is at its end. -/
theorem halts_at_end {n : Nat} (h : m.step = (.stepped s, m')) (hhalt : m.halt? = none)
    (ht : m.device.tape.Alike t) (hcapacity : t.capacity = n) (hlt : m.device.tape.mark < n)
    (hle : n ≤ m'.device.tape.mark) :
    (m.on t).Halts (some (.pointerOutOfBounds s.ip (n - 1) '>')) := by
  obtain ⟨hc, hpointer, rfl⟩ := raise_of_step h ht.strict hlt hle
  have hpointer : t.pointer + 1 = n := by rw [ht.pointer, hpointer]
  have hlast : t.move? .right = none :=
    Tape.move?_eq_none_of_last ht.strict' (hpointer.trans hcapacity.symm)
  have hfail : (m.on t).Fails '>' (.pointerOutOfBounds m.ip t.pointer '>') := .move rfl hlast
  rw [← hpointer, Nat.add_sub_cancel]
  exact .step hhalt (step_eq_failed_iff.mpr ⟨rfl, '>', hc, hfail⟩)

/-! ## fresh tapes of every length -/

/-- A strict run that has not failed for want of cells would have been the same on
every longer or shorter tape with a cell at its high-water mark.  On a tape with
fewer cells it fails at the move with which it has first come to the cell that is
missing, after the same steps as before. -/
theorem mark_is_cells_needed {capacity : Nat} {fault : Option Fault}
    (hfresh : m.device.tape = .blank capacity .strict) (hret : m.Returns fault ss m')
    (hfault : ∀ ip pointer, fault ≠ some (.pointerOutOfBounds ip pointer '>')) :
    let mark := m'.device.tape.mark
    (∀ n, mark < n → ∃ t, (m.on (.blank n .strict)).Returns fault ss (m'.on t) ∧
      t.capacity = n ∧ t.policy = .strict ∧ t.pointer = m'.device.tape.pointer ∧ t.mark = mark ∧
      (∀ i, i ≤ mark → t.value? i = m'.device.tape.value? i) ∧
      ∀ i, mark < i → i < n → t.value? i = some 0) ∧
    ∀ n, 0 < n → n ≤ mark → ∃ ss₁ s ss₂ m₁, ss = ss₁ ++ s :: ss₂ ∧
      s.instruction = '>' ∧ s.pointer = n - 1 ∧ s.action = .moved n ∧
      (∀ s' ∈ ss₁, s'.action ≠ .moved n) ∧
      (m.on (.blank n .strict)).Returns (some (.pointerOutOfBounds s.ip (n - 1) '>')) ss₁ m₁ := by
  intro mark
  obtain ⟨hex, hpermits, hhalts⟩ := returns_iff_halts.mp hret
  have halike : ∀ n, m.device.tape.Alike (.blank n .strict) := fun n => by
    rw [hfresh]
    exact Tape.alike_blank capacity n
  have hcapacity : ∀ n, 0 < n → (Tape.blank n .strict).capacity = n := fun n hn => by
    rw [Tape.capacity_blank, Nat.max_eq_left hn]
  constructor
  · intro n hn
    have hn₀ : 0 < n := Nat.zero_lt_of_lt hn
    obtain ⟨t, hex', ht, hsize⟩ := hex.on (halike n) (by rwa [hcapacity n hn₀])
    rw [hcapacity n hn₀] at hsize
    obtain ⟨ps, hvisited⟩ := hex.visited (by rw [hfresh]; exact Tape.visited_blank _ _)
    refine ⟨t, returns_iff_halts.mpr ⟨hex', hpermits, hhalts.on ht hfault⟩, hsize, ht.strict',
      ht.pointer, ht.mark, fun i hi => ?_, fun i hi hlt => ?_⟩
    · rw [Tape.value?_eq_cell (by omega), ht.cell,
        Tape.value?_eq_cell (Nat.lt_of_le_of_lt hi m'.device.tape.mark_lt)]
    · rw [Tape.value?_eq_cell (by omega), ht.cell, hvisited.zero_of_mark_lt hi]
  · intro n hn₀ hn
    have hstart : ¬ n ≤ m.device.tape.mark := by
      rw [hfresh]
      exact Nat.not_le_of_lt hn₀
    obtain ⟨ss₁, s, ss₂, m₁, m₂, rfl, hex₁, hm₁, hstep, hm₂⟩ :=
      hex.exists_gain (P := fun m => n ≤ m.device.tape.mark) hstart hn
    have hm₁ := Nat.lt_of_not_le hm₁
    obtain ⟨t, hex', ht, hsize⟩ := hex₁.on (halike n) (by rwa [hcapacity n hn₀])
    rw [hcapacity n hn₀] at hsize
    -- The run has gone on to this step, so no test stops it here on any tape.
    have hhalt : m₁.halt? = none := by
      rw [List.length_append, List.length_cons] at hpermits
      exact ((permits_succ_iff hstep _).mp (hex₁.permits_of_append hpermits)).1
    have hpermits₁ : m.Permits ss₁.length := hpermits.mono (by simp)
    have hend := halts_at_end hstep hhalt ht hsize hm₁ hm₂
    obtain ⟨-, hpointer, rfl⟩ := raise_of_step hstep ht.strict hm₁ hm₂
    refine ⟨ss₁, _, ss₂, m₁.on t, rfl, rfl, ?_, rfl, fun s' hs' ha => ?_,
      returns_iff_halts.mpr ⟨hex', hpermits₁, hend⟩⟩
    · exact Nat.eq_sub_of_add_eq hpointer
    · exact Nat.not_le_of_lt hm₁ (hex₁.target_le hs' ha)

/-- A program that copies its input to the next cell, stopped by the limit on its
way: the third cell is the last one that it needs. -/
theorem copy_needs_three_cells :
    let m : Machine := { load ⟨#['>', ',', '[', '>', '+', '<', '-', ']', '.']⟩
      ⟨.blank 9 .strict, (Wiring.fresh.supply [2]).closeInput⟩ with limit := some 12 }
    m.device.tape = .blank 9 .strict ∧ ∃ ss m', m.Returns (some (.stepLimit 12)) ss m' ∧
      m'.device.tape.mark = 2 ∧
      (∃ t, (m.on (.blank 3 .strict)).Returns (some (.stepLimit 12)) ss (m'.on t) ∧
        t.value? 2 = some 2) ∧
      ∃ ss₁ m₁, (m.on (.blank 2 .strict)).Returns (some (.pointerOutOfBounds 3 1 '>')) ss₁ m₁ := by
  intro m
  have hret : m.Returns (some (.stepLimit 12)) (m.run 20).seen.toList (m.run 20).machine :=
    ⟨20, by decide +kernel, rfl, rfl⟩
  have hmark : (m.run 20).machine.device.tape.mark = 2 := by decide +kernel
  have hvalue : (m.run 20).machine.device.tape.value? 2 = some 2 := by decide +kernel
  have hip : ∀ s ∈ (m.run 20).seen.toList, s.action = .moved 2 → s.ip = 3 := by decide +kernel
  have htape : m.device.tape = .blank 9 .strict := rfl
  obtain ⟨hlonger, hshorter⟩ := mark_is_cells_needed htape hret nofun
  obtain ⟨t, ht, -, -, -, -, hcells, -⟩ := hlonger 3 (by rw [hmark]; decide)
  obtain ⟨ss₁, s, ss₂, m₁, hss, -, -, haction, -, hm₁⟩ :=
    hshorter 2 (by decide) (Nat.le_of_eq hmark.symm)
  refine ⟨htape, _, _, hret, hmark, ⟨t, ht, ?_⟩, ss₁, m₁, ?_⟩
  · rw [hcells 2 (Nat.le_of_eq hmark.symm), hvalue]
  · rw [hip s (by rw [hss]; simp) haction] at hm₁
    exact hm₁

end Machine

end Brainfuck
