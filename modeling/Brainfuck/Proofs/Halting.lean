import Brainfuck.Machine.Run
import Brainfuck.Proofs.Execution

/-!
# Brainfuck.Proofs.Halting

What a run returns, and when.

A run is an execution that the tests before each step let go on.  How far they do
is a matter of numbers (`Machine.Permits`), because no step changes the limit or
the cancel flag:

* `permits_succ_iff`, `Executes.permits_of_append` — a run may take one step more,
  or the rest of an execution;
* `runFrom_of_permits` — fuel for a permitted execution is used up by it;
* `returns_iff_halts` — a run returns exactly when a permitted execution reaches
  a machine that halts.

So the fuel of `Machine.run` disappears from every statement about what a run
returns.
-/

namespace Brainfuck

/-- The ending of a run that has returned. -/
def Ending.returned : Option Fault → Ending
  | none => .finished
  | some fault => .failed fault

theorem Ending.returned_inj {f g : Option Fault} (h : Ending.returned f = .returned g) : f = g := by
  cases f <;> cases g <;> cases h <;> rfl

namespace Machine

/-- `m.Returns fault ss m'`: a run of `m` on its own returns with this result,
has executed the steps `ss`, and leaves the machine as `m'`. -/
def Returns (m : Machine) (fault : Option Fault) (ss : List Step) (m' : Machine) : Prop :=
  ∃ fuel, (m.run fuel).ending = .returned fault ∧ (m.run fuel).seen.toList = ss ∧
    (m.run fuel).machine = m'

/-- `m.Permits n`: the tests before each step let a run of `m` take `n` steps, if
the program has them. -/
def Permits (m : Machine) (n : Nat) : Prop :=
  n = 0 ∨ m.device.wiring.cancelled = false ∧ ∀ limit, m.limit = some limit → m.steps + n ≤ limit

/-- `m.Halts fault`: a run that has come to `m` returns there with this result,
because a test before the step says so, or because the step fails. -/
inductive Halts (m : Machine) : Option Fault → Prop where
  | test {fault : Option Fault} {last : List Notice} (h : m.halt? = some (.returned fault, last)) :
    Halts m fault
  | step {fault : Fault} (h : m.halt? = none) (hstep : m.step = (.failed fault, m)) :
    Halts m (some fault)

variable {m m' : Machine} {s : Step} {ss : List Step}

/-! ## how far the tests let a run go -/

theorem halt?_of_isFinished (h : m.isFinished = true) :
    m.halt? = some (.finished, [.runFinished m.steps]) := by
  rw [halt?, if_pos h]

/-- A run goes on when the program has not ended, nobody has asked to stop, and
the limit is not reached. -/
theorem halt?_eq_none_iff :
    m.halt? = none ↔ m.isFinished = false ∧ m.device.wiring.cancelled = false ∧
      ∀ limit, m.limit = some limit → m.steps < limit := by
  unfold halt?
  cases m.isFinished <;> cases m.device.wiring.cancelled <;> cases m.limit <;> simp

theorem permits_succ_iff (h : m.step = (.stepped s, m')) (n : Nat) :
    m.Permits (n + 1) ↔ m.halt? = none ∧ m'.Permits n := by
  have hfinished := isFinished_of_step h
  obtain ⟨-, -, hlimit, -, hcancelled, -⟩ := frame_of_step h
  have hsteps : m'.steps = m.steps + 1 := (Executes.cons h (.nil m')).steps_eq
  rw [halt?_eq_none_iff, Permits, Permits, hlimit, hcancelled, hsteps]
  constructor
  · intro hpermits
    obtain hzero | ⟨hc, hl⟩ := hpermits
    · cases hzero
    · refine ⟨⟨hfinished, hc, fun limit hlim => ?_⟩, .inr ⟨hc, fun limit hlim => ?_⟩⟩
      · have := hl limit hlim
        omega
      · have := hl limit hlim
        omega
  · intro hpermits
    obtain ⟨⟨-, hc, hlt⟩, hrest⟩ := hpermits
    refine .inr ⟨hc, fun limit hlim => ?_⟩
    have := hlt limit hlim
    obtain rfl | ⟨-, hl⟩ := hrest
    · exact this
    · have := hl limit hlim
      omega

theorem permits_zero (m : Machine) : m.Permits 0 := .inl rfl

/-- Behind what it has executed, a run may take the rest of the permitted steps. -/
theorem Executes.permits_of_append {n : Nat} (h : m.Executes ss m')
    (hpermits : m.Permits (ss.length + n)) : m'.Permits n := by
  induction h with
  | nil => simpa using hpermits
  | @cons m m₁ m₂ s ss head tail ih =>
    rw [List.length_cons, Nat.add_right_comm] at hpermits
    exact ih ((permits_succ_iff head _).mp hpermits).2

theorem Permits.mono {n k : Nat} (h : m.Permits n) (hle : k ≤ n) : m.Permits k := by
  obtain rfl | ⟨hc, hl⟩ := h
  · exact .inl (Nat.le_zero.mp hle)
  · refine .inr ⟨hc, fun limit hlim => ?_⟩
    have := hl limit hlim
    omega

/-! ## a run and its execution -/

theorem push_append_toArray {α : Type} (xs : Array α) (a : α) (as : List α) :
    xs.push a ++ as.toArray = xs ++ (a :: as).toArray := by
  apply Array.toList_inj.mp
  simp

theorem runFrom_of_halt? {ending : Ending} {last : List Notice} (h : m.halt? = some (ending, last))
    (seen : Array Step) (log : Array Notice) (fuel : Nat) :
    m.runFrom seen log fuel = ⟨ending, m, seen, log ++ last.toArray⟩ := by
  cases fuel <;> simp only [runFrom, h]

theorem runFrom_of_step (hhalt : m.halt? = none) (h : m.step = (.stepped s, m'))
    (seen : Array Step) (log : Array Notice) (fuel : Nat) :
    m.runFrom seen log (fuel + 1) = m'.runFrom (seen.push s) (log.push (.stepTaken s)) fuel := by
  simp only [runFrom, hhalt, h]

theorem runFrom_of_failed {fault : Fault} (hhalt : m.halt? = none) (h : m.step = (.failed fault, m))
    (seen : Array Step) (log : Array Notice) (fuel : Nat) :
    m.runFrom seen log (fuel + 1) = ⟨.failed fault, m, seen, log⟩ := by
  simp only [runFrom, hhalt, h]

/-- A run goes through every permitted execution, and hands out its records. -/
theorem runFrom_of_permits (h : m.Executes ss m') (hpermits : m.Permits ss.length)
    (seen : Array Step) (log : Array Notice) (fuel : Nat) :
    m.runFrom seen log (ss.length + fuel) =
      m'.runFrom (seen ++ ss.toArray) (log ++ (ss.map Notice.stepTaken).toArray) fuel := by
  induction h generalizing seen log with
  | nil => simp
  | @cons m m₁ m₂ s ss head tail ih =>
    obtain ⟨hhalt, hrest⟩ := (permits_succ_iff head _).mp hpermits
    rw [List.length_cons, Nat.add_right_comm, runFrom_of_step hhalt head, ih hrest,
      push_append_toArray, push_append_toArray, List.map_cons]

theorem Halts.runFrom (h : m.Halts fault) (seen : Array Step) (log : Array Notice) :
    (m.runFrom seen log 1).ending = .returned fault ∧
      (m.runFrom seen log 1).seen = seen ∧ (m.runFrom seen log 1).machine = m := by
  cases h with
  | test h =>
    rw [runFrom_of_halt? h]
    exact ⟨rfl, rfl, rfl⟩
  | step h hstep =>
    rw [runFrom_of_failed h hstep]
    exact ⟨rfl, rfl, rfl⟩

/-- What a run of `m` leaves behind is accounted for by a permitted execution that
began when `seen` had been handed out. -/
def Affords (m : Machine) (seen : Array Step) (r : Run) : Prop :=
  ∃ ss, r.seen = seen ++ ss.toArray ∧ m.Executes ss r.machine ∧ m.Permits ss.length ∧
    ∀ fault, r.ending = .returned fault → r.machine.Halts fault

/-- A run that ends before its first step. -/
theorem affords_of_halts {ending : Ending} (h : ∀ fault, ending = .returned fault → m.Halts fault)
    (seen : Array Step) (log : Array Notice) : m.Affords seen ⟨ending, m, seen, log⟩ :=
  ⟨[], by simp, .nil m, permits_zero m, h⟩

/-- A run that a test stops. -/
theorem affords_of_halt? {x : Ending × List Notice} (h : m.halt? = some x) (seen : Array Step)
    (log : Array Notice) : m.Affords seen ⟨x.1, m, seen, log⟩ := by
  have hhalts : ∀ fault, x.1 = .returned fault → m.Halts fault := by
    intro fault he
    have hx : m.halt? = some (.returned fault, x.2) := by rw [h, ← he]
    exact .test hx
  exact affords_of_halts hhalts seen log

/-- What a run has done is a permitted execution, and a run that has returned
stands at a machine that halts. -/
theorem affords_runFrom (m : Machine) (seen : Array Step) (log : Array Notice) (fuel : Nat) :
    m.Affords seen (m.runFrom seen log fuel) := by
  induction fuel generalizing m seen log with
  | zero =>
    cases hh : m.halt? with
    | some x =>
      simp only [runFrom, hh]
      exact affords_of_halt? hh seen _
    | none =>
      simp only [runFrom, hh]
      exact affords_of_halts (fun fault he => by cases fault <;> cases he) seen log
  | succ fuel ih =>
    cases hh : m.halt? with
    | some x =>
      simp only [runFrom, hh]
      exact affords_of_halt? hh seen _
    | none =>
      obtain ⟨hf, -, -⟩ := halt?_eq_none_iff.mp hh
      obtain ⟨h, _⟩ | ⟨c, a, j, d, _, _, h⟩ | ⟨c, fault, _, _, h⟩ | ⟨c, _, _, h⟩ := m.step_cases
      · rw [hf] at h
        cases h
      · simp only [runFrom, hh, h]
        obtain ⟨ss, hseen, hex, hpermits, hend⟩ := ih (m.proceeded j d)
          (seen.push { m.sight c with action := a }) (log.push (.stepTaken _))
        exact ⟨_ :: ss, by rw [hseen, push_append_toArray], .cons h hex,
          (permits_succ_iff h _).mpr ⟨hh, hpermits⟩, hend⟩
      · simp only [runFrom, hh, h]
        refine affords_of_halts (fun fault' he => ?_) seen log
        rw [← Ending.returned_inj (f := some fault) he]
        exact .step hh h
      · simp only [runFrom, hh, h]
        exact affords_of_halts (fun fault he => by cases fault <;> cases he) seen log

/-- What a run has handed out it has executed. -/
theorem executes_run (m : Machine) (fuel : Nat) :
    m.Executes (m.run fuel).seen.toList (m.run fuel).machine := by
  obtain ⟨ss, hseen, hex, -⟩ :=
    m.affords_runFrom #[] #[.runStarted m.program.size m.ip m.delay] fuel
  rw [← run] at hseen hex
  have hss : (m.run fuel).seen.toList = ss := by simp [hseen]
  rw [hss]
  exact hex

/-- A run returns exactly when a permitted execution reaches a machine that halts. -/
theorem returns_iff_halts {fault : Option Fault} :
    m.Returns fault ss m' ↔ m.Executes ss m' ∧ m.Permits ss.length ∧ m'.Halts fault := by
  constructor
  · intro h
    obtain ⟨fuel, hend, rfl, rfl⟩ := h
    obtain ⟨ts, hseen, hex, hpermits, hhalts⟩ :=
      m.affords_runFrom #[] #[.runStarted m.program.size m.ip m.delay] fuel
    rw [← run] at hseen hex hhalts
    have hss : (m.run fuel).seen.toList = ts := by
      rw [hseen]
      simp
    rw [hss]
    exact ⟨hex, hpermits, hhalts fault hend⟩
  · intro h
    obtain ⟨hex, hpermits, hhalts⟩ := h
    obtain ⟨hend, hseen, hmachine⟩ := hhalts.runFrom (#[] ++ ss.toArray)
      (#[.runStarted m.program.size m.ip m.delay] ++ (ss.map Notice.stepTaken).toArray)
    refine ⟨ss.length + 1, ?_⟩
    rw [run, runFrom_of_permits hex hpermits]
    exact ⟨hend, by rw [hseen]; simp, hmachine⟩

end Machine

end Brainfuck
