import Brainfuck.Proofs.Outcome

/-!
# Brainfuck.Proofs.BackJumps

Only back jumps can make a run long.

A step goes on behind the position at which its instruction ends.  That is never
before the instruction itself, but where a closing bracket has jumped back to its
partner (`Step.jumpsBack`).  So between two back jumps an execution passes each
position of the program at most once:

* `Performs.lt_succ_iff`, `ip_lt_iff_of_step` — what one instruction, and one step,
  does to the position;
* `Executes.length_add_le` — an execution is no longer than the rest of the program
  and one whole program for each back jump;
* `exists_stops_of_straight`, `exists_returns_of_straight` — a program that has
  nowhere to jump back to comes to a stop;
* `only_back_jumps_prolong` — all of it for one machine.
-/

namespace Brainfuck

/-- Whether an action is a jump back to an opening bracket. -/
def Action.jumpsBack : Action → Bool
  | .jumpedBack _ => true
  | _ => false

/-- Whether a step has jumped back to an opening bracket. -/
def Step.jumpsBack (s : Step) : Bool := s.action.jumpsBack

namespace Program

/-- No closing bracket of the program has an opening bracket before it. -/
def Straight (p : Program) : Prop :=
  ∀ i j, i < j → p.at? i = some '[' → p.at? j ≠ some ']'

/-- A program is straight if the backward search fails wherever it can be started. -/
theorem straight_iff (p : Program) :
    p.Straight ↔ ∀ j, j < p.size → p.at? j = some ']' → p.lastOpen? j = none := by
  constructor
  · intro h j _ hclose
    rw [lastOpen?_eq_none_iff]
    intro i hi hopen
    exact h i j hi hopen hclose
  · intro h i j hi hopen hclose
    have hnone := h j (lt_size_of_at? hclose) hclose
    exact (lastOpen?_eq_none_iff p j).mp hnone i hi hopen

instance (p : Program) : Decidable p.Straight :=
  decidable_of_iff (∀ j, j < p.size → p.at? j = some ']' → p.lastOpen? j = none)
    p.straight_iff.symm

end Program

namespace Machine

variable {m m' : Machine} {s : Step} {ss : List Step}

/-! ## one step -/

/-- An instruction ends before itself only if it jumps back. -/
theorem Performs.lt_succ_iff {i : Instruction} {a : Action} {j : Nat} {d : Device}
    (h : m.Performs i a j d) : m.ip < j + 1 ↔ a.jumpsBack = false := by
  cases h with
  | jumpForward _ hj =>
    obtain ⟨hle, -, -⟩ := (Program.firstClose?_eq_some_iff _ _ _).mp hj
    simp only [Action.jumpsBack, iff_true]
    omega
  | jumpBack _ hj =>
    obtain ⟨hlt, -, -⟩ := (Program.lastOpen?_eq_some_iff _ _ _).mp hj
    simp only [Action.jumpsBack, Bool.true_eq_false, iff_false]
    omega
  | _ => simp [Action.jumpsBack]

/-- A step takes the position forwards, unless it jumps back. -/
theorem ip_lt_iff_of_step (h : m.step = (.stepped s, m')) :
    m.ip < m'.ip ↔ s.jumpsBack = false := by
  obtain ⟨c, a, j, d, -, hp, rfl, rfl⟩ := step_eq_stepped_iff.mp h
  exact hp.lt_succ_iff

theorem ip_lt_size_of_step (h : m.step = (.stepped s, m')) : m.ip < m.program.size := by
  obtain ⟨c, _, _, _, hc, -⟩ := step_eq_stepped_iff.mp h
  exact Program.lt_size_of_at? hc

/-- A step jumps back from a closing bracket to an opening one before it. -/
theorem brackets_of_jumpsBack (h : m.step = (.stepped s, m')) (hs : s.jumpsBack = true) :
    ∃ j, j < m.ip ∧ m.program.at? j = some '[' ∧ m.program.at? m.ip = some ']' := by
  obtain ⟨c, a, j, d, hc, hp, rfl, -⟩ := step_eq_stepped_iff.mp h
  generalize hi : Instruction.ofChar c = i at hp
  cases hp with
  | jumpBack _ hj =>
    obtain ⟨hlt, hopen, -⟩ := (Program.lastOpen?_eq_some_iff _ _ _).mp hj
    have hclose : c = ']' := Instruction.eq_of_symbol? hi rfl
    exact ⟨_, hlt, hopen, hclose ▸ hc⟩
  | _ => cases hs

/-! ## many steps -/

/-- Each record of an execution is that of a step on its way. -/
theorem Executes.at_record {us vs : List Step} (h : m.Executes (us ++ s :: vs) m') :
    ∃ m₁ m₂, m.Executes us m₁ ∧ m₁.step = (.stepped s, m₂) ∧ m₂.Executes vs m' := by
  induction us generalizing m with
  | nil =>
    cases h with
    | cons head tail => exact ⟨m, _, .nil m, head, tail⟩
  | cons u us ih =>
    cases h with
    | cons head tail =>
      obtain ⟨m₁, m₂, hex, hstep, hrest⟩ := ih tail
      exact ⟨m₁, m₂, .cons head hex, hstep, hrest⟩

/-- The measure is the number of back jumps still to come, and then the distance to
the end of the program: a back jump lowers the one and may raise the other. -/
theorem Executes.length_add_le (h : m.Executes ss m') :
    ss.length ≤ (m.program.size - m.ip) + m.program.size * ss.countP Step.jumpsBack := by
  induction h with
  | nil => simp
  | @cons m m₁ m₂ s ss head tail ih =>
    obtain ⟨hprogram, -⟩ := frame_of_step head
    have hinside := ip_lt_size_of_step head
    have hforwards := ip_lt_iff_of_step head
    rw [hprogram] at ih
    rw [List.length_cons, List.countP_cons]
    cases hs : s.jumpsBack with
    | true =>
      rw [if_pos rfl, Nat.mul_succ]
      omega
    | false =>
      have hlt : m.ip < m₁.ip := hforwards.mpr hs
      simp only [Bool.false_eq_true, if_false, Nat.add_zero]
      omega

theorem Executes.length_le (h : m.Executes ss m') :
    ss.length ≤ m.program.size * (ss.countP Step.jumpsBack + 1) := by
  have hle := h.length_add_le
  rw [Nat.mul_succ]
  omega

/-! ## programs without back jumps -/

theorem Executes.countP_jumpsBack (h : m.Executes ss m') (hm : m.program.Straight) :
    ss.countP Step.jumpsBack = 0 := by
  induction h with
  | nil => rfl
  | @cons m m₁ m₂ s ss head tail ih =>
    obtain ⟨hprogram, -⟩ := frame_of_step head
    have hs : s.jumpsBack = false := by
      rw [Bool.eq_false_iff]
      intro hback
      obtain ⟨j, hlt, hopen, hclose⟩ := brackets_of_jumpsBack head hback
      exact hm j m.ip hlt hopen hclose
    rw [List.countP_cons, ih (hprogram ▸ hm), hs]
    rfl

theorem Executes.length_le_size (h : m.Executes ss m') (hm : m.program.Straight) :
    ss.length ≤ m.program.size := by
  have hle := h.length_le
  rwa [h.countP_jumpsBack hm, Nat.zero_add, Nat.mul_one] at hle

/-- Stepped by hand, a program without back jumps comes to a stop. -/
theorem exists_stops_of_straight (hm : m.program.Straight)
    (hclosed : m.device.wiring.input.closed = true) :
    ∃ fault ss m', m.Executes ss m' ∧ m'.Stops fault := by
  obtain ⟨ss, m', hex, hlength | ⟨-, fault, hstop⟩⟩ := exists_executes hclosed (m.program.size + 1)
  · have hle := hex.length_le_size hm
    omega
  · exact ⟨fault, ss, m', hex, hstop⟩

/-- A run that someone has asked to stop returns before its first step. -/
theorem exists_returns_of_cancelled (hcancelled : m.device.wiring.cancelled = true) :
    ∃ fault, m.Returns fault [] m := by
  have hhalts : ∃ fault, m.Halts fault := by
    cases hfinished : m.isFinished with
    | true => exact ⟨none, .test (halt?_of_isFinished hfinished)⟩
    | false =>
      have hhalt : m.halt? = some (.failed (.cancelled m.ip), [.runCancelled m.ip]) := by
        simp [halt?, hfinished, hcancelled]
      exact ⟨some (.cancelled m.ip), .test hhalt⟩
  obtain ⟨fault, hhalts⟩ := hhalts
  exact ⟨fault, returns_iff_halts.mpr ⟨.nil m, permits_zero m, hhalts⟩⟩

/-- A run of a program without back jumps returns. -/
theorem exists_returns_of_straight (hm : m.program.Straight)
    (hclosed : m.device.wiring.input.closed = true) :
    ∃ fault ss m', m.Returns fault ss m' := by
  cases hcancelled : m.device.wiring.cancelled with
  | true =>
    obtain ⟨fault, hret⟩ := exists_returns_of_cancelled hcancelled
    exact ⟨fault, [], m, hret⟩
  | false =>
    cases hlimit : m.limit with
    | some limit => exact exists_returns_of_limit hcancelled hclosed hlimit
    | none =>
      obtain ⟨fault, ss, m', hex, hstop⟩ := exists_stops_of_straight hm hclosed
      have hfree : m.Free := ⟨hlimit, hcancelled⟩
      exact ⟨fault, ss, m', (returns_iff hfree).mpr ⟨hex, hstop⟩⟩

/-- **Only back jumps can make a run long.**  Every step of an execution takes the
position forwards, but for those that jump back, and an execution has at most as many
steps as the program has characters, times one more than it has back jumps.  So a
program in which no closing bracket has an opening one before it comes to a stop
within as many steps as it has characters, whatever the tape, when all its input is
there: stepped by hand, and in a run, whether the run has a limit or not. -/
theorem only_back_jumps_prolong (m : Machine) :
    (∀ ss m', m.Executes ss m' →
      (∀ us s vs, ss = us ++ s :: vs → ∃ m₁ m₂, m.Executes us m₁ ∧ m₁.step = (.stepped s, m₂) ∧
        m₂.Executes vs m' ∧ (m₁.ip < m₂.ip ↔ s.jumpsBack = false)) ∧
      ss.length ≤ m.program.size * (ss.countP Step.jumpsBack + 1)) ∧
    (m.program.Straight → m.device.wiring.input.closed = true →
      (∃ fault ss m', m.Executes ss m' ∧ m'.Stops fault ∧ ss.length ≤ m.program.size) ∧
      ∃ fault ss m', m.Returns fault ss m' ∧ ss.length ≤ m.program.size) := by
  constructor
  · intro ss m' hex
    refine ⟨fun us s vs hss => ?_, hex.length_le⟩
    subst hss
    obtain ⟨m₁, m₂, hbefore, hstep, hafter⟩ := hex.at_record
    exact ⟨m₁, m₂, hbefore, hstep, hafter, ip_lt_iff_of_step hstep⟩
  · intro hm hclosed
    obtain ⟨fault, ss, m', hex, hstop⟩ := exists_stops_of_straight hm hclosed
    obtain ⟨fault', ts, m'', hret⟩ := exists_returns_of_straight hm hclosed
    obtain ⟨hex', -, -⟩ := returns_iff_halts.mp hret
    exact ⟨⟨fault, ss, m', hex, hstop, hex.length_le_size hm⟩,
      fault', ts, m'', hret, hex'.length_le_size hm⟩

/-- Two back jumps of a loop that counts down, and brackets that face away from each
other, with a comma that finds the end of the input. -/
theorem counts_down_and_falls_through :
    let loop := Machine.load ⟨#['+', '+', '+', '[', '-', ']']⟩ (.blank 1 .strict)
    let apart := Machine.load ⟨#['+', ']', ',', '[']⟩
      { Device.blank 1 .strict with wiring := Wiring.fresh.closeInput }
    let ss := (loop.run 20).seen.toList
    (ss.length = 10 ∧ ss.countP Step.jumpsBack = 2 ∧ ss.length ≤ loop.program.size * (2 + 1)) ∧
      ∃ fault ts m', apart.Returns fault ts m' ∧ ts.length ≤ 4 := by
  intro loop apart ss
  have hex : loop.Executes ss (loop.run 20).machine := loop.executes_run 20
  have hlength : ss.length = 10 := by decide
  have hcount : ss.countP Step.jumpsBack = 2 := by decide
  obtain ⟨hloop, -⟩ := only_back_jumps_prolong loop
  obtain ⟨-, hle⟩ := hloop ss _ hex
  rw [hcount] at hle
  have hstraight : apart.program.Straight := by decide
  obtain ⟨-, hapart⟩ := only_back_jumps_prolong apart
  obtain ⟨-, hret⟩ := hapart hstraight rfl
  exact ⟨⟨hlength, hcount, hle⟩, hret⟩

end Machine

end Brainfuck
